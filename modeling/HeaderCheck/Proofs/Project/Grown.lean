import HeaderCheck.Proofs.Project.Handles

/-!
# HeaderCheck.Proofs.Project.Grown

Fields that assignments add to open objects.

* `run_fieldType_growing`, `run_fieldType_found`: an access to an open object as a target and as a read.
* `State.Grows`: the declared type of a variable is in sight and is an object, so fields can be added.
* `typeIn_widened`: widening gives such a variable an object that has the field.
* `added_field_read`: a field that an assignment adds to a variable is read at the assigned type right
  afterwards. Fields that are added to other receivers are not kept.
-/

namespace HeaderCheck

open HeaderCheck.Types (ObjectShape Table TypeId)

/-- The field that is set is found. -/
theorem Types.ObjectShape.find?_withField (shape : ObjectShape) (name : String) (type : TypeId) :
    (shape.withField name type).find? name = some { name, type } := by
  unfold ObjectShape.withField
  split
  · next i hi =>
    obtain ⟨hlt, hname, hbefore⟩ := List.findIdx?_eq_some_iff_getElem.mp hi
    refine List.find?_eq_some_iff_getElem.mpr ⟨by simp, i, by simpa using hlt, by simp, ?_⟩
    intro j hj
    have := hbefore j hj
    simp only [List.getElem_set, Nat.ne_of_gt hj, if_false]
    simpa using this
  · next hnone =>
    have hfree : shape.find? name = none := by
      rw [ObjectShape.position?, List.findIdx?_eq_none_iff] at hnone
      exact List.find?_eq_none.mpr (by simpa using hnone)
    rw [ObjectShape.find?] at hfree ⊢
    simp [hfree]

namespace Verify

open HeaderCheck.Project (Host Options SessionM alike requiring)
open HeaderCheck.Scope (Arena)
open HeaderCheck.Script

variable {s s₁ s' : State} {access : Access} {name : String} {type value : TypeId} {shape : ObjectShape}

/-! ## Fields of objects -/

theorem findField_object {t : Table} (ht : t.WellFormed) (globals : Globals) (field : String)
    (hshape : t.objectShape? type = some shape) :
    findField t globals field type =
      match shape.find? field with
      | some found => .found found.type
      | none => if shape.isOpen then .growing else .missing := by
  have hdata := Table.objectShape?_eq_some.mp hshape
  have hany : type ≠ .any := by
    rintro rfl
    have hname : t.lookup .any = some (.literal "Any" true) := ht.builtin rfl
    rw [hname] at hdata
    cases hdata
  cases hfield : shape.find? field <;>
    simp only [findField, findFieldWithin, if_neg hany, hdata, hfield]

theorem run_fieldType_found {object : TypeId} {field : String}
    (h : findField s.table s.session.globals field object = .found type) :
    (access.fieldType object field).run s = (.ok (some type), s) := by
  rw [Access.fieldType, run_get_bind, h]
  rfl

theorem run_fieldType_growing {object : TypeId} {field : String} (htarget : s.focus.isTarget)
    (h : findField s.table s.session.globals field object = .growing) :
    (access.fieldType object field).run s = (.ok (some .openField), s) := by
  rw [Access.fieldType, run_get_bind, h]
  simp [htarget]

/-! ## Accesses by a name -/

/-- The access `object.field`. -/
def fieldOf (object : Expr) (field : Identifier) (span : Span) : Expr :=
  .member object (.identifier field) false span

/-- What is read does not depend on whether it stands in a target. -/
theorem run_asRead_target {α : Type} {m : Check α} {a : α} {focus : Focus}
    (h : (asRead m).run s = (.ok a, s)) (hscope : focus.scope = s.focus.scope)
    (hexpected : focus.expected = s.focus.expected) :
    (asRead m).run { s with focus } = (.ok a, { s with focus }) := by
  have hsame : ({ focus with mode := .normal, isTarget := false } : Focus) =
      { s.focus with mode := .normal, isTarget := false } := by rw [hscope, hexpected]
  rw [asRead, run_withFocus] at h ⊢
  simp only [hsame]
  obtain ⟨hresult, hstate⟩ := Prod.mk.inj h
  refine Prod.ext hresult ?_
  exact congrArg (fun s : State => { s with focus }) hstate

section Access

variable {require : (file request : String) → SessionM Required} {fuel : Nat} {receiver : Expr}
  {field : Identifier} {span : Span}

/-- An access by a name to an object that is read without further ado. -/
theorem run_fieldOf (field : Identifier) (span : Span) (focus : Focus)
    (hscope : focus.scope = s.focus.scope) (hexpected : focus.expected = s.focus.expected)
    (hreceiver : (asRead ((visitor require fuel).expr receiver)).run s = (.ok (some type), s)) :
    ((visitor require (fuel + 1)).expr (fieldOf receiver field span)).run { s with focus } =
      (Access.fieldType ⟨receiver, .identifier field, false, span⟩ type field.name).run
        { s with focus } :=
  run_bind_ok (run_asRead_target hreceiver hscope hexpected) _

/-- A field that an open object lacks is verified as a target. -/
theorem run_target_growing (ht : s.table.WellFormed)
    (hreceiver : (asRead ((visitor require fuel).expr receiver)).run s = (.ok (some type), s))
    (hshape : s.table.objectShape? type = some shape) (hopen : shape.isOpen)
    (hlacks : shape.find? field.name = none) :
    (asTarget ((visitor require (fuel + 1)).expr (fieldOf receiver field span))).run s =
      (.ok (some .openField), s) := by
  have hfield := findField_object ht s.session.globals field.name hshape
  rw [hlacks] at hfield
  simp only [hopen, if_true] at hfield
  let focus : Focus := { s.focus with mode := .writable, isTarget := true }
  have hverify : ((visitor require (fuel + 1)).expr (fieldOf receiver field span)).run { s with focus } =
      (.ok (some .openField), { s with focus }) :=
    (run_fieldOf field span focus rfl rfl hreceiver).trans (run_fieldType_growing rfl hfield)
  rw [asTarget, run_withFocus, hverify]

/-- A field that an object has is read at its type. -/
theorem run_read_found (ht : s.table.WellFormed)
    (hreceiver : (asRead ((visitor require fuel).expr receiver)).run s = (.ok (some type), s))
    (hshape : s.table.objectShape? type = some shape)
    (hfound : shape.find? field.name = some { name := field.name, type := value }) :
    (asRead ((visitor require (fuel + 1)).expr (fieldOf receiver field span))).run s =
      (.ok (some value), s) := by
  have hfield := findField_object ht s.session.globals field.name hshape
  rw [hfound] at hfield
  let focus : Focus := { s.focus with mode := .normal, isTarget := false }
  have hverify : ((visitor require (fuel + 1)).expr (fieldOf receiver field span)).run { s with focus } =
      (.ok (some value), { s with focus }) :=
    (run_fieldOf field span focus rfl rfl hreceiver).trans (run_fieldType_found hfield)
  rw [asRead, run_withFocus, hverify]

end Access

/-- A variable is read at the type that it has. -/
theorem run_asRead_identifier {require : (file request : String) → SessionM Required} {fuel : Nat}
    {id : Identifier} (h : s.typeIn s.focus.scope id.name .normal = some type) :
    (asRead ((visitor require (fuel + 1)).expr (.identifier id))).run s = (.ok (some type), s) := by
  have hverify : (verifyIdentifier id).run
      { s with focus := { s.focus with mode := .normal, isTarget := false } } =
        (.ok (some type), { s with focus := { s.focus with mode := .normal, isTarget := false } }) := by
    have hlookup : State.lookup
        { s with focus := { s.focus with mode := .normal, isTarget := false } } id.name = some type := h
    rw [verifyIdentifier, run_get_bind, hlookup]
    rfl
  exact congrArg (fun run : Except Project.Error (Option TypeId) × State =>
    (run.1, { run.2 with focus := s.focus })) hverify

/-! ## Variables that get fields -/

/-- The declared type of the variable is in sight and is an object. -/
structure State.Grows (s : State) (name : String) : Prop where
  unnarrowed : s.narrows name = false
  object : ∃ type shape, s.declaredType name = some type ∧ s.table.objectShape? type = some shape

/-- Widening gives the variable an object that has the field. -/
theorem run_widenObject {id field : Identifier} {span : Span} (ht : s.table.WellFormed)
    (hvalue : s.table.Issued value) (ho : s.arena.Ordered)
    (hfocus : s.focus.scope.index < s.arena.size) (h : s.Grows id.name)
    (hrun : (widenObject ⟨.identifier id, .identifier field, false, span⟩ value).run s =
      (.ok (), s')) :
    s'.table.WellFormed ∧ ∃ type shape, s'.typeIn s'.focus.scope id.name .normal = some type ∧
      s'.table.objectShape? type = some shape ∧
      shape.find? field.name = some { name := field.name, type := value } := by
  obtain ⟨declared, shape, hdeclared, hshape⟩ := h.object
  have hname : (Access.mk (.identifier id) (.identifier field) false span).name? = some field.name := rfl
  have hmade : s.table.withField declared field.name value =
      some (s.table.objectOf (shape.withField field.name value)) := by
    rw [Table.withField, hshape]
    rfl
  rw [widenObject, run_get_bind] at hrun
  simp only [hname, hdeclared] at hrun
  obtain ⟨widened, s₁, hwiden, hupdate⟩ := ok_of_run_bind hrun
  rw [run_onTable?_some hmade] at hwiden
  cases hwiden
  obtain ⟨holder, s₂, hforce, hdone⟩ := ok_of_run_bind hupdate
  cases hdone
  obtain ⟨scope, hfind, rfl⟩ := run_forceUpdateVar hforce
  refine ⟨(Table.grows_withField ht hvalue hmade).wellFormed, _, shape.withField field.name value, ?_,
    Table.objectShape?_eq_some.mpr (Types.Table.lookup_add_self s.table _), shape.find?_withField _ _⟩
  exact Arena.getVar_bindVar ho hfocus hfind h.unnarrowed _ _

/-- Fields are added to variables only. -/
theorem run_widenObject_other {receiver : Expr} {field : Identifier} {span : Span}
    (h : ∀ id, receiver ≠ .identifier id) :
    (widenObject ⟨receiver, .identifier field, false, span⟩ value).run s = (.ok (), s) := by
  rw [widenObject, run_get_bind]
  split
  · next id field hid _ => exact absurd hid (h id)
  · rfl

/-- An assignment that adds a field verifies the value and widens the object. -/
theorem run_assignTo_openField {v : Visitor} {receiver right : Expr} {field : Identifier} {span : Span}
    (hrun : (assignTo v (fieldOf receiver field span) .openField right).run s = (.ok (some value), s')) :
    ∃ s₁, (v.into right none).run s = (.ok (some value), s₁) ∧
      (widenObject ⟨receiver, .identifier field, false, span⟩ value).run s₁ = (.ok (), s') := by
  have haccept : (assignFreely v right (widenObject ⟨receiver, .identifier field, false, span⟩)).run s =
      (.ok (some value), s') := hrun
  obtain ⟨result, s₁, hinto, hrest⟩ := ok_of_run_bind haccept
  cases result with
  | none => cases hrest
  | some found =>
    obtain ⟨⟨⟩, s₂, hwiden, hdone⟩ := ok_of_run_bind hrest
    cases hdone
    exact ⟨s₁, hinto, hwiden⟩

end Verify

namespace Project

open HeaderCheck.Script
open HeaderCheck.Verify

variable (host : Host) (options : Options) (levels fuel : Nat)

/-- A field that an assignment adds to an open object: where the object is that of a variable, which is
still declared as an object when the value has been verified and is not narrowed then, a read right
afterwards gives the type of the value. Where it is that of another receiver, nothing but the value is
taken note of. -/
theorem added_field_read {program : Program} {s s' : State}
    (hs : s.Fits (Region.whole (Ground.any program))) (hissued : s.Issued)
    {receiver right : Expr} {field : Identifier} {span span' : Span} {type value : TypeId}
    {shape : ObjectShape} (hright : Node.expr right ∈ nodesOf program.body)
    (hreceiver : (asRead ((requiring host options levels fuel).expr receiver)).run s =
      (.ok (some type), s))
    (hshape : s.table.objectShape? type = some shape) (hopen : shape.isOpen)
    (hlacks : shape.find? field.name = none)
    (hrun : (verifyAssignment (requiring host options levels (fuel + 1)) "="
      (fieldOf receiver field span) right span').run s = (.ok (some value), s')) :
    ∃ s₁, ((requiring host options levels (fuel + 1)).into right none).run s =
        (.ok (some value), s₁) ∧
      (∀ id, receiver = .identifier id → s₁.Grows id.name →
        (asRead ((requiring host options levels (fuel + 1)).expr (fieldOf receiver field span))).run s' =
          (.ok (some value), s') ∧ s'.table.isSubtype value value) ∧
      ((∀ id, receiver ≠ .identifier id) → s' = s₁) := by
  have hv : (requiring host options levels (fuel + 1)).Confines (Ground.any program) :=
    confines_any (globals_requireModule host options levels) (fuel + 1)
  rw [verifyAssignment, if_neg (by decide)] at hrun
  obtain ⟨found, s₀, htarget, hassign⟩ := ok_of_run_bind hrun
  rw [requiring, run_target_growing hissued.table hreceiver hshape hopen hlacks] at htarget
  cases htarget
  obtain ⟨s₁, hinto, hwiden⟩ := run_assignTo_openField hassign
  refine ⟨s₁, hinto, ?_, fun hother => ?_⟩
  · rintro id rfl hgrows
    have hfits := (leaves_into hv hs hright hinto).fits hs
    obtain ⟨hissued₁, -, hvalue⟩ := hissued.run?
      ((visitsAlike_requiring host options levels (fuel + 1)).into right .none) hinto
    obtain ⟨ht, type', shape', htype', hshape', hfound⟩ := run_widenObject hissued₁.table
      (hvalue value rfl) hfits.arena.sound.ordered hfits.focus hgrows hwiden
    obtain ⟨fuel, rfl⟩ : ∃ k, fuel = k + 1 := by
      cases fuel with
      | zero => cases hreceiver
      | succ k => exact ⟨k, rfl⟩
    exact ⟨run_read_found ht (run_asRead_identifier htype') hshape' hfound, isSubtype_self _ _⟩
  · rw [run_widenObject_other hother] at hwiden
    cases hwiden
    rfl

/-! ## Receivers that forget -/

/-- A header type for objects that get fields by assignment. -/
def openObject : Signature.TypeExpr :=
  .object [] none false true Types.plainBrand

/-- Both branches give `x` an open object. -/
def growing : Program :=
  Build.program
    [Build.branch (Build.ident "c") [Build.expression (Build.assign (Build.ident "x") (Build.ident "d"))]
        (some [Build.expression (Build.assign (Build.ident "x") (Build.ident "d"))]),
      Build.expression (Build.ident "n")]

def Host.growing : Host :=
  (Host.single Project.growing).addHeader "/app/main.hjs"
    (Signature.Build.header
      [Signature.Build.assignment "d" openObject,
        Signature.Build.assignment "o" (Signature.Build.object [("p", openObject)]),
        Signature.Build.assignment "x"
          (Signature.Build.union [openObject, Signature.Build.value "null"]),
        Signature.Build.assignment "c" (Signature.Build.literal "Boolean"),
        Signature.Build.assignment "n" (Signature.Build.literal "Number")])

def grown : State :=
  stateOf (inspect Host.growing {} "/app/main.js")

/-- The visitor of the source, with `fuel` levels of nodes left. -/
def grower (fuel : Nat) : Visitor :=
  requiring Host.growing {} 1 fuel

/-- The assignment `receiver.f = n`. -/
def growField (receiver : Expr) : Check (Option TypeId) :=
  verifyAssignment (grower 3) "=" (fieldOf receiver { name := "f" } {}) (Build.ident "n") {}

/-- A read of `receiver.f`. -/
def readField (receiver : Expr) : Check (Option TypeId) :=
  asRead ((grower 3).expr (fieldOf receiver { name := "f" } {}))

/-- What an assignment to a field of `d` finds there and leaves, and what one to a field of `o.p` or of
`x` does. -/
theorem checked_growing :
    (inspect Host.growing {} "/app/main.js").isOk ∧
      (let after := (((grower 3).into (Build.ident "n") none).run grown).2
      grown.typeIn grown.focus.scope "d" .normal = some ⟨18⟩ ∧
        ((growField (Build.ident "d")).run grown).1.toOption = some (some .number) ∧
        after.narrows "d" = false ∧ after.declaredType "d" = some ⟨18⟩ ∧
        after.table.objectShape? ⟨18⟩ = some ⟨[], true, Types.plainBrand⟩) ∧
      grown.table.objectShape? ⟨18⟩ = some ⟨[], true, Types.plainBrand⟩ ∧ grown.diagnostics = [] ∧
      ∀ receiver ∈ [Build.member (Build.ident "o") "p", Build.ident "x"],
        let after := (growField receiver).run grown
        ((asRead ((grower 3).expr receiver)).run grown).1.toOption = some (some ⟨18⟩) ∧
          after.1.toOption = some (some .number) ∧ after.2.diagnostics = [] ∧
          ((readField receiver).run after.2).1.toOption = some none ∧
          ((readField receiver).run after.2).2.diagnostics ≠ [] := by
  rw [grown, inspect, Session.start_eq]
  decide +kernel

theorem inspect_growing : inspect Host.growing {} "/app/main.js" = .ok grown :=
  eq_ok_stateOf checked_growing.1

/-- The field that `d.f = n` adds to the variable `d` is a number afterwards. -/
theorem added_field_read_variable :
    ∃ s', (growField (Build.ident "d")).run grown = (.ok (some .number), s') ∧
      (readField (Build.ident "d")).run s' = (.ok (some .number), s') ∧
      s'.table.isSubtype .number .number := by
  have hfits : grown.Fits (Region.whole (Ground.any growing)) := by
    obtain ⟨source, hsource, hfits⟩ := fits_inspect inspect_growing
    cases hsource
    exact hfits
  have hstatement : Node.stmt (Build.expression (Build.ident "n")) ∈ nodesOf growing.body :=
    List.mem_flatMap.mpr ⟨_, by simp [growing, Build.program], Node.self_mem_nodes _⟩
  have hright : Node.expr (Build.ident "n") ∈ nodesOf growing.body :=
    mem_nodesOf_of_part hstatement List.mem_cons_self
  obtain ⟨-, ⟨htype, hvalue, hunnarrowed, hdeclared, hobject⟩, hshape, -⟩ := checked_growing
  have hissued : grown.Issued := issued_inspect inspect_growing
  have hreceiver : (asRead ((requiring Host.growing {} 1 2).expr (Build.ident "d"))).run grown =
      (.ok (some ⟨18⟩), grown) := run_asRead_identifier htype
  have hrun : (verifyAssignment (requiring Host.growing {} 1 (2 + 1)) "="
      (fieldOf (Build.ident "d") { name := "f" } {}) (Build.ident "n") {}).run grown =
        (.ok (some .number), ((growField (Build.ident "d")).run grown).2) := run_eq_of_toOption hvalue
  obtain ⟨s₁, hinto, hread, -⟩ := added_field_read Host.growing {} 1 2 hfits hissued hright hreceiver
    hshape rfl rfl hrun
  have hs₁ : (((grower 3).into (Build.ident "n") none).run grown).2 = s₁ := congrArg Prod.snd hinto
  have hgrows : s₁.Grows "d" := hs₁ ▸ ⟨hunnarrowed, _, _, hdeclared, hobject⟩
  exact ⟨_, hrun, hread { name := "d" } rfl hgrows⟩

/-- Neither the object in the field `p` of `o` keeps a field that is added to it, nor does a variable
`x` that is narrowed to an open object: both are seen as open objects that lack `f`, the assignment
reports nothing, and a read right afterwards does. -/
theorem added_field_forgotten :
    ∃ s, inspect Host.growing {} "/app/main.js" = .ok s ∧
      ∀ receiver ∈ [Build.member (Build.ident "o") "p", Build.ident "x"],
        ∃ type value s' s'',
          ((asRead ((grower 3).expr receiver)).run s).1.toOption = some (some type) ∧
          s.table.objectShape? type = some ⟨[], true, Types.plainBrand⟩ ∧
          (growField receiver).run s = (.ok (some value), s') ∧ s'.diagnostics = s.diagnostics ∧
          (readField receiver).run s' = (.ok none, s'') ∧ s''.diagnostics ≠ s'.diagnostics := by
  refine ⟨grown, inspect_growing, fun receiver hreceiver => ?_⟩
  obtain ⟨-, -, hshape, hclean, hall⟩ := checked_growing
  obtain ⟨htype, hvalue, hquiet, hread, hreported⟩ := hall receiver hreceiver
  refine ⟨⟨18⟩, .number, _, _, htype, hshape, run_eq_of_toOption hvalue, hquiet.trans hclean.symm,
    run_eq_of_toOption hread, ?_⟩
  rw [hquiet]
  exact hreported

end Project

end HeaderCheck
