import HeaderCheck.Proofs.Header.Resuming
import HeaderCheck.Proofs.Project.Imports
import HeaderCheck.Signature.Build

/-!
# HeaderCheck.Proofs.Project.Imported

What a declared type is where it is imported.

* `Import`: where a header imports a type under its own name, and nothing else under that name after.
* `imported_lowerImports`: from there on the name stands for the type that the other header exports.
* `imported_declaration_agrees`: the name alone comes to the same type in both headers. Applied to
  arguments it makes a generic type where it is imported, and the arguments do not get into its body.
-/

namespace HeaderCheck.Project

open HeaderCheck.Header hiding Lowered Lowering
open HeaderCheck.Header (Lowered Lowering)
open HeaderCheck.Signature
open HeaderCheck.Types (Table TypeId)

/-! ## Imports of one name -/

/-- The names that a list of imported types binds. -/
def localNames (items : List TypeExpr) : List String :=
  (items.filterMap importedName?).map Prod.fst

/-- The names that a statement imports. -/
def importedNames : Statement → List String
  | .imports _ items => localNames items
  | _ => []

/-- Where a header imports `name` under its own name. Of its imports of the name this is the last. -/
structure Import (header : Signature.Header) (name : String) where
  before : List Statement
  dependency : String
  front : List TypeExpr
  item : TypeExpr
  back : List TypeExpr
  after : List Statement
  statements : header.statements = before ++ .imports dependency (front ++ item :: back) :: after
  request : Path.isRequest dependency = true
  itself : importedName? item = some (name, name)
  lastItem : name ∉ localNames back
  lastImport : ∀ statement ∈ after, name ∉ importedNames statement

variable {l l' : Lowering} {name : String} {type : TypeId} {declarations : Dict TypeId}
  {resolve : String → SessionM (Option Lowered)} {options : Options} {s s' : Session}

theorem imported_importType {item : TypeExpr} (h : name ∉ localNames [item]) :
    (l.importType declarations item).imported.get? name = l.imported.get? name := by
  unfold Lowering.importType
  split
  · rfl
  next other target hitem =>
  have hne : other ≠ name := by
    rintro rfl
    simp [localNames, hitem] at h
  split
  · rfl
  split
  · rw [Dict.get?_insert, if_neg hne]
  · simp only [Dict.get?_insert, if_neg hne]

theorem imported_importType_itself {item : TypeExpr} (hitem : importedName? item = some (name, name))
    (htype : declarations.get? name = some type) :
    (l.importType declarations item).imported.get? name = some type := by
  rw [Lowering.importType, hitem]
  simp only [htype, if_true, Dict.get?_insert]

theorem imported_foldl {items : List TypeExpr} (h : name ∉ localNames items) :
    (items.foldl (fun l item => l.importType declarations item) l).imported.get? name =
      l.imported.get? name := by
  induction items generalizing l with
  | nil => rfl
  | cons item rest ih =>
    have hsplit : localNames (item :: rest) = localNames [item] ++ localNames rest := by
      rw [localNames, localNames, localNames, ← List.map_append, ← List.filterMap_append]
      rfl
    rw [hsplit, List.mem_append, not_or] at h
    rw [List.foldl_cons, ih h.2, imported_importType h.1]

/-- An import that does not name `name` leaves it. -/
theorem imported_lowerImport {dependency : String} {items : List TypeExpr}
    (h : name ∉ localNames items)
    (hrun : (lowerImport resolve options l dependency items).run s = (.ok l', s')) :
    l'.imported.get? name = l.imported.get? name := by
  rw [lowerImport] at hrun
  split at hrun
  · cases hrun
    rfl
  obtain ⟨found, s₁, -, hrun⟩ := ok_of_run_bind hrun
  cases found with
  | none =>
    cases hrun
    rfl
  | some header =>
    cases hrun
    exact imported_foldl h

theorem imported_lowerImports_of_not_mem {statements : List Statement}
    (h : ∀ statement ∈ statements, name ∉ importedNames statement)
    (hrun : (lowerImports resolve options l statements).run s = (.ok l', s')) :
    l'.imported.get? name = l.imported.get? name := by
  induction statements generalizing l s with
  | nil =>
    cases hrun
    rfl
  | cons statement rest ih =>
    obtain ⟨hfirst, hrest⟩ := List.forall_mem_cons.mp h
    cases statement with
    | imports dependency items =>
      obtain ⟨l₁, s₁, himport, hrun⟩ := ok_of_run_bind hrun
      rw [ih hrest hrun, imported_lowerImport hfirst himport]
    | assignment name type => exact ih hrest hrun
    | declaration name body generics => exact ih hrest hrun
    | comment text => exact ih hrest hrun

theorem lowerImports_append (before after : List Statement) :
    lowerImports resolve options l (before ++ after) = (do
      let l ← lowerImports resolve options l before
      lowerImports resolve options l after) := by
  induction before generalizing l with
  | nil => rw [lowerImports, pure_bind, List.nil_append]
  | cons statement rest ih =>
    cases statement with
    | imports dependency items =>
      simp only [List.cons_append, lowerImports, bind_assoc, ih]
    | assignment name type => exact ih
    | declaration name body generics => exact ih
    | comment text => exact ih

/-- The name stands for the type that the other header exports. -/
theorem imported_lowerImports {header : Signature.Header} (i : Import header name) {l₁ : Lowering}
    {s₁ s₂ : Session} {lowered : Lowered}
    (hbefore : (lowerImports resolve options l i.before).run s = (.ok l₁, s₁))
    (hresolve : (resolve (options.importTarget l₁.path i.dependency)).run s₁ =
      (.ok (some lowered), s₂))
    (htype : lowered.declarations.get? name = some type)
    (hrun : (lowerImports resolve options l header.statements).run s = (.ok l', s')) :
    l'.imported.get? name = some type := by
  rw [i.statements, lowerImports_append, run_bind_ok hbefore] at hrun
  obtain ⟨l₂, s₃, himport, hafter⟩ := ok_of_run_bind hrun
  rw [imported_lowerImports_of_not_mem i.lastImport hafter]
  rw [lowerImport, i.request] at himport
  have hfound := (run_bind_ok hresolve _).symm.trans himport
  cases hfound
  change (List.foldl (fun (l : Lowering) item => l.importType lowered.declarations item) _
    (i.front ++ i.item :: i.back)).imported.get? name = some type
  rw [List.foldl_append, List.foldl_cons, imported_foldl i.lastItem]
  exact imported_importType_itself i.itself htype

/-! ## Names in both headers -/

theorem run_literal (fuel : Nat) (flag : Option Bool) (label : Option String) (optional : Bool) :
    (lowerWithin (fuel + 1) (.literal name flag label optional)).run l =
      (literalIn l (lowerDeclaration (lowerWithin fuel)) name (flag.getD (isBuiltinName name))).run l := by
  rw [lowerWithin, lowerLevel_eq]
  rfl

theorem run_generic (fuel : Nat) (base : TypeExpr) (args : List TypeExpr) (label : Option String) :
    (lowerWithin (fuel + 1) (.generic base args label)).run l = (do
      let ids ← args.mapM (lowerWithin fuel)
      genericIn (← get) (lowerDeclaration (lowerWithin fuel)) (lowerWithin fuel) base ids).run l := by
  rw [lowerWithin, lowerLevel_eq]
  rfl

/-- A lowering in the course of `header`, whose imports are those of `l`, where `name` is not a type
variable. -/
structure InCourse (header : Signature.Header) (l : Lowering) (name : String) (q : Lowering) :
    Prop where
  wellFormed : q.table.WellFormed
  declarations : q.declarations = declarationsOf header
  imported : q.imported = l.imported
  free : q.binding? name = none

/-- The name comes to `id` where it is declared: to the type that is exported unless it is built in,
which counts first. -/
theorem name_agrees {header : Signature.Header} {p : Lowering} (h : Resumed header name type p)
    (hdeclared : (declarationsOf header).contains name = true) (flag : Option Bool)
    (label : Option String) (optional : Bool) :
    ∃ id p' enough, p'.table.WellFormed ∧ (∀ fuel, enough ≤ fuel →
        (lowerWithin fuel (.literal name flag label optional)).run p = (.ok id, p')) ∧
      ∀ q : Lowering, q.table.WellFormed → p'.table.Extends q.table → q.binding? name = none →
        q.declarations.contains name = false → q.imported.get? name = some type → ∀ fuel,
          (lowerWithin (fuel + 1) (.literal name flag label optional)).run q = (.ok id, q) := by
  have hfree : p.binding? name = none := by
    rw [Lowering.binding?, h.typeVars]
    rfl
  by_cases hbuiltin : (flag.getD (isBuiltinName name) || Table.sentinelNames.contains name) = true
  · have hgrows : p.table.Grows (p.table.literal name true) :=
      Table.grows_add h.sound.table (by simp [Types.TypeData.parts]) trivial
    refine ⟨(p.table.literal name true).1, { p with table := (p.table.literal name true).2 }, 1,
      hgrows.wellFormed, fun fuel hfuel => ?_, fun q hq hx hfree' _ _ fuel => ?_⟩
    · obtain ⟨fuel, rfl⟩ : ∃ n, fuel = n + 1 := ⟨fuel - 1, by omega⟩
      rw [run_literal, literalIn, hfree]
      simp only [hbuiltin, if_true]
      rfl
    · rw [run_literal, literalIn, hfree']
      simp only [hbuiltin, if_true]
      have hagain := Table.add_again hq hx
      change (Except.ok (q.table.add _).1, { q with table := (q.table.add _).2 }) = _
      rw [hagain]
      rfl
  · obtain ⟨reported, enough, hagain⟩ := h.again
    refine ⟨type, p.reporting reported, enough + 1, h.sound.table, fun fuel hfuel => ?_,
      fun q _ _ hfree' hother himported fuel => ?_⟩
    · obtain ⟨fuel, rfl⟩ : ∃ n, fuel = n + 1 := ⟨fuel - 1, by omega⟩
      rw [run_literal, literalIn, hfree, h.declarations]
      simp only [hbuiltin, hdeclared, if_true]
      exact hagain fuel (by omega)
    · rw [run_literal, literalIn, hfree']
      simp only [hbuiltin, hother, himported]
      rfl

/-- A built-in type. -/
def IsBuiltin : TypeExpr → Prop
  | .literal name flag _ _ => flag.getD (isBuiltinName name) = true
  | _ => False

variable {header : Signature.Header} {q : Lowering} {id : TypeId} {flag : Option Bool}
  {label : Option String} {optional : Bool}

/-- Built-in types are lowered in the course of a header, which goes on from there. -/
theorem InCourse.run_builtin (hq : InCourse header l name q) {arg : TypeExpr} (harg : IsBuiltin arg)
    (fuel : Nat) : ∃ id q', (lowerWithin (fuel + 1) arg).run q = (.ok id, q') ∧
      InCourse header l name q' ∧ q.table.Extends q'.table := by
  cases arg with
  | literal builtin flag label optional =>
    have hbuiltin : flag.getD (isBuiltinName builtin) = true := harg
    rw [run_literal, literalIn, hbuiltin]
    cases hbound : q.binding? builtin with
    | some bound => exact ⟨bound, q, rfl, hq, .refl _⟩
    | none =>
      have hgrows : q.table.Grows (q.table.literal builtin true) :=
        Table.grows_add hq.wellFormed (by simp [Types.TypeData.parts]) trivial
      exact ⟨_, _, rfl, ⟨hgrows.wellFormed, hq.declarations, hq.imported, hq.free⟩, hgrows.extend⟩
  | _ => exact harg.elim

theorem InCourse.run_builtins (hq : InCourse header l name q) {args : List TypeExpr}
    (hargs : ∀ arg ∈ args, IsBuiltin arg) (fuel : Nat) : ∃ ids q',
      (args.mapM (lowerWithin (fuel + 1))).run q = (.ok ids, q') ∧ InCourse header l name q' ∧
        q.table.Extends q'.table := by
  induction args generalizing q with
  | nil => exact ⟨[], q, rfl, hq, .refl _⟩
  | cons arg rest ih =>
    obtain ⟨harg, hrest⟩ := List.forall_mem_cons.mp hargs
    obtain ⟨id, q₁, hfirst, hq₁, hx₁⟩ := hq.run_builtin harg fuel
    obtain ⟨ids, q₂, hothers, hq₂, hx₂⟩ := ih hq₁ hrest
    refine ⟨id :: ids, q₂, ?_, hq₂, hx₁.trans hx₂⟩
    rw [List.mapM_cons, run_bind_ok hfirst, run_bind_ok hothers]
    rfl

/-- Applied to arguments, a name that is not declared makes a generic type. -/
theorem run_generic_undeclared {args : List TypeExpr} {ids : List TypeId} {q' : Lowering} {fuel : Nat}
    (hargs : (args.mapM (lowerWithin fuel)).run q = (.ok ids, q'))
    (hother : q'.declarations.contains name = false)
    (hliteral : (lowerWithin fuel (.literal name flag label optional)).run q' = (.ok id, q'))
    (label' : Option String) :
    (lowerWithin (fuel + 1) (.generic (.literal name flag label optional) args label')).run q =
      (.ok (q'.table.generic id ids).1, { q' with table := (q'.table.generic id ids).2 }) := by
  have hunapplied : q'.applied? (.literal name flag label optional) = none := by
    rw [Lowering.applied?, hother, Bool.and_false]
    rfl
  rw [run_generic, run_bind_ok hargs, run_get_bind, genericIn, hunapplied]
  exact run_bind_ok hliteral _

/-- A name that is imported under its own name comes to the same type in both headers, the header
that declares it and the one that imports it. -/
theorem imported_declaration_agrees {exporter importer : Signature.Header} {name : String}
    {start last : Lowering} {lowered : Lowered}
    (hstart : start.Begins exporter) (hkeys : KeysApart (declarationsOf exporter))
    (hdeclared : (declarationsOf exporter).contains name = true)
    (hexports : (lowerStatements exporter).run start = (.ok lowered, last))
    (i : Import importer name) {begin l₁ l : Lowering} {s s₁ s₂ s' : Session}
    (hbefore : (lowerImports resolve options begin i.before).run s = (.ok l₁, s₁))
    (hresolve : (resolve (options.importTarget l₁.path i.dependency)).run s₁ =
      (.ok (some lowered), s₂))
    (himports : (lowerImports resolve options begin importer.statements).run s = (.ok l, s'))
    (hother : (declarationsOf importer).contains name = false) :
    ∃ pairs known, (lowerDeclarations exporter).run start = (.ok pairs, known) ∧
      ∀ fuel (types : List TypeExpr) ids p, (types.mapM (lowerWithin fuel)).run known = (.ok ids, p) →
      ∀ flag label optional, ∃ id p' enough, p'.table.WellFormed ∧
        (∀ fuel, enough ≤ fuel →
          (lowerWithin fuel (.literal name flag label optional)).run p = (.ok id, p')) ∧
        ∀ q, InCourse importer l name q → p'.table.Extends q.table →
          (∀ fuel, (lowerWithin (fuel + 1) (.literal name flag label optional)).run q = (.ok id, q)) ∧
          ∀ args label', (∀ arg ∈ args, IsBuiltin arg) → ∀ fuel, ∃ ids q',
            (args.mapM (lowerWithin (fuel + 1))).run q = (.ok ids, q') ∧
            (lowerWithin (fuel + 2)
              (.generic (.literal name flag label optional) args label')).run q =
                (.ok (q'.table.generic id ids).1,
                  { q' with table := (q'.table.generic id ids).2 }) := by
  obtain ⟨pairs, known, hrun, hfound, hagain⟩ := exported_again hstart hkeys hexports
  obtain ⟨type, htype⟩ := hfound name hdeclared
  have himported := imported_lowerImports i hbefore hresolve htype himports
  refine ⟨pairs, known, hrun, fun fuel types ids p hmore flag label optional => ?_⟩
  obtain ⟨id, p', enough, hwf, hexporter, himporter⟩ :=
    name_agrees (hagain name type htype fuel types ids p hmore) hdeclared flag label optional
  refine ⟨id, p', enough, hwf, hexporter, fun q hq hx => ?_⟩
  have hname : ∀ q', InCourse importer l name q' → p'.table.Extends q'.table → ∀ fuel,
      (lowerWithin (fuel + 1) (.literal name flag label optional)).run q' = (.ok id, q') := by
    intro q' hq' hx'
    refine himporter q' hq'.wellFormed hx' hq'.free ?_ ?_
    · rw [hq'.declarations, hother]
    · rw [hq'.imported, himported]
  refine ⟨hname q hq hx, fun args label' hargs fuel => ?_⟩
  obtain ⟨ids, q', hrun', hq', hx'⟩ := hq.run_builtins hargs fuel
  refine ⟨ids, q', hrun', run_generic_undeclared hrun' ?_ (hname q' hq' (hx.trans hx') fuel) label'⟩
  rw [hq'.declarations, hother]

/-! ## A box -/

/-- `Box<T>` is `{ value: T }`, and `box` is bound to `Box<String>`. -/
def shapes : Signature.Header :=
  Build.header [Build.declaration "Box" ["T"] (Build.object [("value", Build.literal "T")]),
    Build.assignment "box" (Build.generic (Build.literal "Box") [Build.literal "String"])]

/-- `Box` is imported, and `box` is bound to `Box<String>`. -/
def boxing : Signature.Header :=
  Build.header [Build.imports "./shapes" [Build.literal "Box"],
    Build.assignment "box" (Build.generic (Build.literal "Box") [Build.literal "String"])]

def boxImport : Import boxing "Box" where
  before := []
  dependency := "./shapes"
  front := []
  item := Build.literal "Box"
  back := []
  after := [Build.assignment "box" (Build.generic (Build.literal "Box") [Build.literal "String"])]
  statements := rfl
  request := by decide +kernel
  itself := rfl
  lastItem := by simp [localNames]
  lastImport := by simp [Build.assignment, importedNames]

theorem keysApart_shapes : KeysApart (declarationsOf shapes) := by
  have honly : ∀ name declared, (declarationsOf shapes).get? name = some declared → name = "Box" := by
    intro name declared hget
    have hkeys : (declarationsOf shapes).keys = ["Box"] := rfl
    have hmem := Dict.mem_keys_iff.mpr ⟨declared, hget⟩
    rw [hkeys] at hmem
    exact List.mem_singleton.mp hmem
  intro name declared other declared' hname hother _
  rw [honly name declared hname, honly other declared' hother]

/-- The name `Box` comes to one type where it is declared and where it is imported. -/
theorem imported_declaration_agrees_box :
    ∃ lowered pairs known l, ((lowerStatements shapes).run (beginning "/shapes.hjs" shapes)).1 =
        .ok lowered ∧
      (lowerDeclarations shapes).run (beginning "/shapes.hjs" shapes) = (.ok pairs, known) ∧
      ((lowerImports (fun _ => pure (some lowered)) {} (beginning "/main.hjs" boxing)
        boxing.statements).run {}).1 = .ok l ∧
      ∃ id p' enough, p'.table.WellFormed ∧
        (∀ fuel, enough ≤ fuel → (lowerWithin fuel (Build.literal "Box")).run known = (.ok id, p')) ∧
        ∀ fuel, ((lowerWithin (fuel + 1) (Build.literal "Box")).run
          { beginning "/main.hjs" boxing with table := p'.table, imported := l.imported }).1 = .ok id := by
  have hgood : ((lowerStatements shapes).run (beginning "/shapes.hjs" shapes)).1.toOption.isSome := by
    decide +kernel
  obtain ⟨lowered, hlowered⟩ := Option.isSome_iff_exists.mp hgood
  rcases hexports : (lowerStatements shapes).run (beginning "/shapes.hjs" shapes) with ⟨e | found, last⟩
  · rw [hexports] at hlowered
    cases hlowered
  rw [hexports] at hlowered
  cases hlowered
  let resolve : String → SessionM (Option Lowered) := fun _ => pure (some lowered)
  let begin := beginning "/main.hjs" boxing
  let l := begin.importFrom lowered [Build.literal "Box"]
  have hbefore : (lowerImports resolve {} begin boxImport.before).run {} = (.ok begin, {}) := rfl
  have hresolve : (resolve (Options.importTarget {} begin.path "./shapes")).run {} =
      (.ok (some lowered), {}) := rfl
  have himports : (lowerImports resolve {} begin boxing.statements).run {} =
      (.ok l, { table := l.table }) := by
    have hrequest : Path.isRequest "./shapes" = true := boxImport.request
    change (lowerImport resolve {} begin "./shapes" [Build.literal "Box"] >>= pure).run {} = _
    rw [lowerImport, hrequest]
    rfl
  have hdeclared : (declarationsOf shapes).contains "Box" = true := by decide +kernel
  have hother : (declarationsOf boxing).contains "Box" = false := by decide +kernel
  obtain ⟨pairs, known, hrun, hall⟩ := imported_declaration_agrees (begins_beginning _ _)
    keysApart_shapes hdeclared hexports boxImport hbefore hresolve himports hother
  obtain ⟨id, p', enough, hwf, hlocal, himported⟩ := hall 0 [] [] known rfl none none false
  refine ⟨lowered, pairs, known, l, rfl, hrun, congrArg Prod.fst himports, id, p', enough, hwf,
    hlocal, fun fuel => ?_⟩
  have hcourse : InCourse boxing l "Box" { begin with table := p'.table, imported := l.imported } :=
    ⟨hwf, rfl, rfl, rfl⟩
  exact congrArg Prod.fst ((himported _ hcourse (.refl _)).1 fuel)

/-- `Box<String>` is `{ value: String }` where `Box` is declared. Where it is imported it is a
generic type, whose base still has the variable. -/
theorem imported_declaration_not_applied :
    let host := (({} : Host).addHeader "/shapes.hjs" shapes).addHeader "/main.hjs" boxing
    let run := (resolveHeader host {} "/main.hjs").run {}
    let table := run.2.table
    let bound := fun path => (run.2.headers.get? path).bind fun header =>
      header.map Lowered.assignments
    bound "/shapes.hjs" = some [("box", ⟨21⟩)] ∧ bound "/main.hjs" = some [("box", ⟨22⟩)] ∧
      table.lookup ⟨21⟩ = some (.object ⟨[{ name := "value", type := .string }], false, "Object"⟩) ∧
      table.lookup ⟨22⟩ = some (.generic ⟨20⟩ [.string]) ∧
      table.lookup ⟨20⟩ = some (.object ⟨[{ name := "value", type := ⟨19⟩ }], false, "Object"⟩) ∧
      table.lookup ⟨19⟩ = some (.free "T") := by
  decide +kernel

end HeaderCheck.Project
