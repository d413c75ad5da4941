import HeaderCheck.Proofs.Header.Again

/-!
# HeaderCheck.Proofs.Header.Mirror

Mirrored expressions.

* `levelWith`: one level of an expression, with what is made of parts and of declarations left open.
  `lowerLevel_eq` is how lowering does it.
* `Mirror.Exprs.level`: one level is mirrored when its parts and the declarations that it names are.
* `Mirror.Onward.learn`, `run_lowerPlain_ok` and what stands with them: the type of a declaration is
  found while it is in progress, and learned.
-/

namespace HeaderCheck.Header

open HeaderCheck.Project (Error)
open HeaderCheck.Report (Diagnostic)
open HeaderCheck.Signature
open HeaderCheck.Types (Table TypeId)

variable {M : Mirror} {α β : Type} {l l' r : Lowering} {names inner : List String}

/-! ## One level of an expression -/

/-- The type of a name in the lowering `s`, `declared` giving the types of declarations. -/
def literalIn (s : Lowering) (declared : String → List TypeId → LowerM TypeId) (name : String)
    (builtin : Bool) : LowerM TypeId :=
  match s.binding? name with
  | some bound => return bound
  | none =>
    if builtin || Table.sentinelNames.contains name then onTable (·.literal name true)
    else if s.declarations.contains name then declared name []
    else
      match s.imported.get? name with
      | some imported => return imported
      | none => do
        modify fun s => s.report .unknownLiteral [("literal", name)]
        return .any

/-- The declaration that an applied type applies. -/
def Lowering.applied? (s : Lowering) : TypeExpr → Option String
  | .literal name _ _ _ =>
    if (s.binding? name).isNone && s.declarations.contains name then some name else none
  | _ => none

/-- The type of `base` applied to `args` in the lowering `s`. -/
def genericIn (s : Lowering) (declared : String → List TypeId → LowerM TypeId)
    (lower : TypeExpr → LowerM TypeId) (base : TypeExpr) (args : List TypeId) : LowerM TypeId :=
  match s.applied? base with
  | some name => declared name args
  | none => do
    let base ← lower base
    onTable (·.generic base args)

/-- One level of an expression, `declared` giving the types of declarations and `lower` those of
parts. -/
def levelWith (declared : String → List TypeId → LowerM TypeId) (lower : TypeExpr → LowerM TypeId) :
    TypeExpr → LowerM TypeId
  | .literal name builtin _ _ => do
    literalIn (← get) declared name (builtin.getD (isBuiltinName name))
  | .generic base args _ => do
    let args ← args.mapM lower
    genericIn (← get) declared lower base args
  | type => lowerLevel lower type

theorem lowerLevel_eq (lower : TypeExpr → LowerM TypeId) (type : TypeExpr) :
    lowerLevel lower type = levelWith (lowerDeclaration lower) lower type := by
  cases type with
  | generic base args label => cases base <;> rfl
  | _ => rfl

theorem Lowering.Follows.literalIn_eq {resumes : Prop} {name : String}
    (h : l.Follows resumes [name] r) (declared : String → List TypeId → LowerM TypeId)
    (builtin : Bool) : literalIn r declared name builtin = literalIn l declared name builtin := by
  rw [literalIn, literalIn, h.bindings name (List.mem_singleton.mpr rfl), Dict.contains, Dict.contains,
    h.declarations, h.imported]

theorem Lowering.Follows.applied?_eq {resumes : Prop} {base : TypeExpr}
    (h : l.Follows resumes base.names r) : r.applied? base = l.applied? base := by
  cases base with
  | literal name builtin label optional =>
    rw [Lowering.applied?, Lowering.applied?, h.bindings name (List.mem_singleton.mpr rfl),
      Dict.contains, Dict.contains, h.declarations]
  | _ => rfl

/-- A lowering in which mirrored work may go on. -/
structure Mirror.Holds (M : Mirror) (l : Lowering) : Prop where
  sound : l.Sound
  known : M.known l

theorem Mirror.Onward.holds (h : M.Onward l l') (hl : M.Holds l) : M.Holds l' :=
  ⟨h.sound hl.sound, h.known hl.known⟩

theorem Mirror.Holds.push (hl : M.Holds l) {typeVars : Dict TypeId}
    (h : ∀ name type, typeVars.get? name = some type → l.table.Issued type) :
    M.Holds (l.push typeVars) :=
  ⟨hl.sound.push h, M.known_congr hl.known (.refl _) rfl rfl rfl rfl (List.prefix_refl _)⟩

theorem Mirror.Holds.start (hl : M.Holds l) (key : String) : M.Holds (l.start key) :=
  ⟨⟨hl.sound.table, hl.sound.typeVars, hl.sound.resolved, hl.sound.imported⟩,
    M.known_congr hl.known (.refl _) rfl rfl rfl rfl (List.prefix_refl _)⟩

/-- Expressions are mirrored when they are ready. -/
def Mirror.Exprs (M : Mirror) (lower : TypeExpr → LowerM TypeId)
    (lower' : (fuel : Nat) → TypeExpr → LowerM TypeId) : Prop :=
  ∀ {l : Lowering} {type : TypeExpr}, M.Holds l → M.ready l type →
    Mirrors M type.names l (fun id t => t.Issued id) (lower type) fun fuel => lower' fuel type

/-- Declarations are mirrored when their names are ready. -/
def Mirror.Declarations (M : Mirror) (declared : String → List TypeId → LowerM TypeId)
    (declared' : (fuel : Nat) → String → List TypeId → LowerM TypeId) : Prop :=
  ∀ {l : Lowering} {name : String} {builtin : Option Bool} {label : Option String} {optional : Bool}
    {args : List TypeId}, M.Holds l → M.ready l (.literal name builtin label optional) →
    l.binding? name = none → l.declarations.contains name = true →
    (∀ arg ∈ args, l.table.Issued arg) →
    Mirrors M [] l (fun id t => t.Issued id) (declared name args) fun fuel => declared' fuel name args

/-- The expressions are ready, and their names are among `names`. -/
def Mirror.Covers (M : Mirror) (l : Lowering) (names : List String) (types : List TypeExpr) : Prop :=
  ∀ type ∈ types, M.ready l type ∧ ∀ name ∈ type.names, name ∈ names

theorem Mirror.Covers.onward {types : List TypeExpr} (h : M.Covers l names types)
    (hk : M.Onward l l') : M.Covers l' names types :=
  fun type hmem => ⟨hk.ready (h type hmem).1, (h type hmem).2⟩

/-- Without variables of its own, an expression covers its parts. -/
theorem Mirror.covers_parts {type : TypeExpr} (hr : M.ready l type) (hvariables : type.variables = []) :
    M.Covers l type.names type.parts := by
  refine fun part hpart => ⟨M.ready_part hr hvariables hpart, fun name hname => ?_⟩
  have hname' := type.names_of_part hpart hname
  rw [hvariables] at hname'
  exact hname'.resolve_left (List.not_mem_nil)

theorem Mirror.covers_push {type : TypeExpr} {typeVars : Dict TypeId} (hr : M.ready l type)
    (hbound : ∀ name ∈ type.variables, (typeVars.get? name).isSome)
    (honly : ∀ name, (typeVars.get? name).isSome → name ∈ type.variables) :
    M.Covers (l.push typeVars) (type.variables ++ type.names) type.parts := fun _ hpart =>
  ⟨M.ready_push hr hbound honly hpart, fun _ hname =>
    List.mem_append.mpr (TypeExpr.names_of_part hpart hname)⟩

section

variable {lower : TypeExpr → LowerM TypeId} {lower' : Nat → TypeExpr → LowerM TypeId}
  {declared : String → List TypeId → LowerM TypeId}
  {declared' : Nat → String → List TypeId → LowerM TypeId} {types : List TypeExpr}

theorem Mirror.Exprs.covered (h : M.Exprs lower lower') (hl : M.Holds l)
    (hc : M.Covers l names types) {type : TypeExpr} (hmem : type ∈ types) :
    Mirrors M names l (fun id t => t.Issued id) (lower type) fun fuel => lower' fuel type :=
  (h hl (hc type hmem).1).mono (hc type hmem).2 fun _ _ => id

theorem mem_of_forall₂ {γ δ : Type} {R : γ → δ → Prop} {Q : δ → Prop} {items : List γ}
    {results : List δ} (h : List.Forall₂ R items results) (hQ : ∀ x b, R x b → Q b) :
    ∀ b ∈ results, Q b := by
  intro b hb
  obtain ⟨x, -, hR⟩ := Types.forall_right h b hb
  exact hQ x b hR

/-- The same for a list of covered expressions. -/
theorem Mirror.Exprs.list (h : M.Exprs lower lower') (hl : M.Holds l) (hc : M.Covers l names types) :
    Mirrors M names l (fun ids t => ∀ id ∈ ids, t.Issued id) (types.mapM lower) fun fuel =>
      types.mapM (lower' fuel) := by
  refine (Mirrors.mapM (P := fun _ id t => t.Issued id) (fun _ _ _ _ hx => hx.issued)
    fun type hmem l₁ h₁ => h.covered (h₁.holds hl) (hc.onward h₁) hmem).mono (fun _ => id) ?_
  exact fun ids t hids => mem_of_forall₂ hids fun _ _ => id

theorem Mirror.Exprs.fields (h : M.Exprs lower lower') (hl : M.Holds l) {fields : List KeyValue}
    (hc : M.Covers l names (fields.map KeyValue.value)) :
    Mirrors M names l (fun made t => ∀ field ∈ made, t.Issued field.type)
      (fields.mapM (lowerField lower)) fun fuel => fields.mapM (lowerField (lower' fuel)) := by
  refine (Mirrors.mapM (P := fun _ field t => t.Issued field.type) (fun _ _ _ _ hx => hx.issued)
    fun field hmem l₁ h₁ => ?_).mono (fun _ => id) fun made t hmade => mem_of_forall₂ hmade fun _ _ => id
  refine .bind (h.covered (h₁.holds hl) (hc.onward h₁) (List.mem_map_of_mem hmem))
    fun id l₂ _ hid => .pure hid

theorem Mirror.Exprs.optional (h : M.Exprs lower lower') (hl : M.Holds l) {type : Option TypeExpr}
    (hc : M.Covers l names type.toList) :
    Mirrors M names l (fun made t => ∀ id ∈ made, t.Issued id) (lowerOptional lower type) fun fuel =>
      lowerOptional (lower' fuel) type := by
  cases type with
  | none => exact .pure (by simp)
  | some type => exact .bind (h.covered hl hc (by simp)) fun id l₁ _ hid => .pure (by simpa using hid)

/-- The parts of a function are types of the table. -/
def PartsIssued (parts : List Types.Param × Option TypeId × TypeId) (t : Table) : Prop :=
  (∀ param ∈ parts.1, t.Issued param.type) ∧ (∀ id ∈ parts.2.1, t.Issued id) ∧ t.Issued parts.2.2

theorem Mirror.Exprs.parts (h : M.Exprs lower lower') (hl : M.Holds l) {args : List TypeExpr}
    {this : Option TypeExpr} {result : TypeExpr}
    (hc : M.Covers l names (args ++ this.toList ++ [result])) :
    Mirrors M names l PartsIssued (lowerParts lower args this result) fun fuel =>
      lowerParts (lower' fuel) args this result := by
  have hargs : Mirrors M names l (fun made t => ∀ param ∈ made, t.Issued param.type)
      (args.mapM (lowerParam lower)) fun fuel => args.mapM (lowerParam (lower' fuel)) := by
    refine (Mirrors.mapM (P := fun _ param t => t.Issued param.type) (fun _ _ _ _ hx => hx.issued)
      fun arg hmem l₁ h₁ => ?_).mono (fun _ => id) fun made t hmade => mem_of_forall₂ hmade fun _ _ => id
    exact .bind (h.covered (h₁.holds hl) (hc.onward h₁) (by simp [hmem])) fun id l₂ _ hid =>
      .pure hid
  refine .bind hargs fun params l₁ h₁ hparams => ?_
  have hthis : M.Covers l₁ names this.toList := fun type hmem => hc.onward h₁ type (by simp [hmem])
  refine .bind (h.optional (h₁.holds hl) hthis) fun this l₂ h₂ hthis => ?_
  have hto : M.Onward l l₂ := IsTrans.trans _ _ _ h₁ h₂
  refine .bind (h.covered (hto.holds hl) (hc.onward hto) (by simp)) fun id l₃ h₃ hid => .pure ?_
  exact ⟨fun param hmem => (h₂.keeps.table.trans h₃.keeps.table).issued (hparams param hmem),
    fun type hmem => h₃.keeps.table.issued (hthis type hmem), hid⟩

theorem mirrors_checks {γ : Type} (check : γ → Except Error PUnit) (items : List γ) :
    Mirrors M names l (fun _ _ => True)
      (items.forM fun x => (ExceptT.mk (pure (check x)) : LowerM PUnit)) fun _ =>
        items.forM fun x => ExceptT.mk (pure (check x)) := by
  induction items generalizing l with
  | nil => exact .pure trivial
  | cons x rest ih =>
    have hfirst : Mirrors M names l (fun _ _ => True)
        (ExceptT.mk (pure (check x)) : LowerM PUnit) fun _ => ExceptT.mk (pure (check x)) :=
      .except fun _ _ => trivial
    exact .bind hfirst fun _ _ _ _ => ih

/-- What is made of the parts of a function is made again of them. -/
theorem mirrors_functionOf (hl : M.Holds l) (generics : List Descriptor) (brand : String)
    {parts : List Types.Param × Option TypeId × TypeId} (hparts : PartsIssued parts l.table) :
    Mirrors M names l (fun id t => t.Issued id) (functionOf generics brand parts) fun _ =>
      functionOf generics brand parts := by
  have hoccurrences : Mirrors M names l
      (fun made t => List.Forall₂ (fun _ _ => True) generics made ∧ PartsIssued parts t)
      (generics.mapM fun descriptor =>
        (ExceptT.mk (pure (lowerOccurrence descriptor)) : LowerM Types.Occurrence)) fun _ =>
        generics.mapM fun descriptor => ExceptT.mk (pure (lowerOccurrence descriptor)) := by
    have hmap : Mirrors M names l (fun made _ => List.Forall₂ (fun _ _ => True) generics made)
        (generics.mapM fun descriptor =>
          (ExceptT.mk (pure (lowerOccurrence descriptor)) : LowerM Types.Occurrence)) fun _ =>
          generics.mapM fun descriptor => ExceptT.mk (pure (lowerOccurrence descriptor)) :=
      .mapM (P := fun _ _ _ => True) (fun _ _ _ _ _ => id) fun descriptor _ l₁ _ =>
        .except fun _ _ => trivial
    refine ⟨hmap.onward, fun made hmade => ⟨hmap.result made hmade, ?_⟩, hmap.again⟩
    have hx := hmap.onward.keeps.table
    exact ⟨fun param hmem => hx.issued (hparts.1 param hmem), fun id hmem => hx.issued (hparts.2.1 id hmem),
      hx.issued hparts.2.2⟩
  refine .bind hoccurrences fun occurrences l₁ h₁ ⟨_, hparams, hthis, hresult⟩ => ?_
  have hmade : l₁.table.Makes fun t => t.function
      { params := parts.1, result := parts.2.2, this := parts.2.1, generics := occurrences, brand } := by
    refine Table.makes_add (h₁.sound hl.sound).table (fun part hpart => ?_) trivial
    simp only [Types.TypeData.parts, List.mem_append, List.mem_map, Option.mem_toList,
      List.mem_singleton] at hpart
    rcases hpart with (⟨param, hmem, rfl⟩ | hmem) | rfl
    · exact hparams param hmem
    · exact hthis part hmem
    · exact hresult
  refine .bind (mirrors_onTable hmade) fun id l₂ h₂ hid => ?_
  have hl₂ : l₂.Sound := h₂.sound (h₁.sound hl.sound)
  refine .get_bind (.bind (mirrors_checks _ _) fun _ l₃ h₃ _ => .pure (h₃.keeps.table.issued hid))
    fun _ r hr => ?_
  have hcheck : ∀ descriptor occurrence, checkInside r.table id descriptor occurrence =
      checkInside l₂.table id descriptor occurrence := by
    intro descriptor occurrence
    rw [checkInside, checkInside, hr.table.typeAt?_eq hl₂.table hr.wellFormed hid]
  simp only [hcheck]

/-- A type without parts. -/
theorem mirrors_leaf (hl : l.Sound) {data : Types.TypeData} (hparts : data.parts = [])
    (hflat : l.table.FlatData data) :
    Mirrors M names l (fun id t => t.Issued id) (onTable fun t => t.add data) fun _ =>
      onTable fun t => t.add data :=
  mirrors_onTable (Table.makes_add hl.table (by simp [hparts]) hflat)

/-- Types for names, all of the table. -/
def Binds (keys : List String) (pairs : List (String × TypeId)) (t : Table) : Prop :=
  pairs.map Prod.fst = keys ∧ ∀ pair ∈ pairs, t.Issued pair.2

theorem Binds.issued {keys : List String} {pairs : List (String × TypeId)} {t : Table}
    (h : Binds keys pairs t) (name : String) (type : TypeId)
    (hget : (Dict.ofList pairs).get? name = some type) : t.Issued type :=
  h.2 (name, type) (Dict.mem_of_get?_ofList hget)

theorem Binds.bound {keys : List String} {pairs : List (String × TypeId)} {t : Table}
    (h : Binds keys pairs t) {name : String} (hname : name ∈ keys) :
    ((Dict.ofList pairs).get? name).isSome :=
  Dict.isSome_get?_ofList (h.1.symm ▸ hname)

theorem Binds.only {keys : List String} {pairs : List (String × TypeId)} {t : Table}
    (h : Binds keys pairs t) (name : String) (hsome : ((Dict.ofList pairs).get? name).isSome) :
    name ∈ keys := by
  obtain ⟨type, hget⟩ := Option.isSome_iff_exists.mp hsome
  exact h.1 ▸ List.mem_map.mpr ⟨_, Dict.mem_of_get?_ofList hget, rfl⟩

theorem binds_of_forall₂ {γ : Type} {key : γ → String} {items : List γ}
    {pairs : List (String × TypeId)} {t : Table}
    (h : List.Forall₂ (fun x pair => pair.1 = key x ∧ t.Issued pair.2) items pairs) :
    Binds (items.map key) pairs t := by
  induction h with
  | nil => exact ⟨rfl, by simp⟩
  | cons hfirst _ ih =>
    refine ⟨?_, List.forall_mem_cons.mpr ⟨hfirst.2, ih.2⟩⟩
    rw [List.map_cons, List.map_cons, hfirst.1, ih.1]

theorem mirrors_variablesOf (hl : l.Sound) (generics : List Descriptor) :
    Mirrors M names l (Binds (generics.map Descriptor.name)) (variablesOf generics) fun _ =>
      variablesOf generics := by
  refine (Mirrors.mapM (P := fun descriptor pair t => pair.1 = descriptor.name ∧ t.Issued pair.2)
    (fun _ _ _ _ hx => And.imp_right hx.issued) fun descriptor _ l₁ h₁ => ?_).mono (fun _ => id)
    fun pairs t hpairs => binds_of_forall₂ hpairs
  refine .bind (mirrors_leaf (h₁.sound hl) rfl trivial) fun id l₂ _ hid => .pure ⟨rfl, hid⟩

theorem Mirror.Exprs.function (h : M.Exprs lower lower') (hl : M.Holds l) {args : List TypeExpr}
    {result : TypeExpr} {this : Option TypeExpr} {label : Option String} {optional : Bool}
    {generics : List Descriptor} {brand : String}
    (hr : M.ready l (.function args result this label optional generics brand)) :
    Mirrors M (TypeExpr.function args result this label optional generics brand).names l
      (fun id t => t.Issued id) (lowerFunction lower args result this generics brand) fun fuel =>
        lowerFunction (lower' fuel) args result this generics brand := by
  simp only [lowerFunction_eq]
  refine .bind (mirrors_variablesOf hl.sound generics) fun pairs l₁ h₁ hpairs => ?_
  have hl₁ := h₁.holds hl
  have hr₁ := h₁.ready hr
  refine .bind (P := PartsIssued) ?_ fun parts l₂ h₂ hparts =>
    mirrors_functionOf (h₂.holds hl₁) generics brand hparts
  split
  · next hempty =>
    have hnone : generics.map Descriptor.name = [] := by simpa using hempty
    exact h.parts hl₁ (M.covers_parts hr₁ hnone)
  · refine .withVariables hpairs.issued (fun name hname hget => ?_)
      (h.parts (hl₁.push hpairs.issued) (M.covers_push hr₁ (fun _ => hpairs.bound) hpairs.only))
    rcases List.mem_append.mp hname with hbound | hname
    · have hsome := hpairs.bound hbound
      rw [hget] at hsome
      cases hsome
    · exact hname

theorem Mirror.Declarations.literal (h : M.Declarations declared declared') (hl : M.Holds l)
    {name : String} {flag : Option Bool} {label : Option String} {optional : Bool}
    (hr : M.ready l (.literal name flag label optional)) (builtin : Bool) :
    Mirrors M [name] l (fun id t => t.Issued id) (do literalIn (← get) declared name builtin)
      (fun fuel => do literalIn (← get) (declared' fuel) name builtin) := by
  suffices hname : Mirrors M [name] l (fun id t => t.Issued id) (literalIn l declared name builtin)
      (fun fuel => literalIn l (declared' fuel) name builtin) from
    hname.get_bind fun fuel r hr => hr.literalIn_eq _ _
  unfold literalIn
  split
  · next bound hbound => exact .pure (hl.sound.issued_binding hbound)
  next hfree =>
  split
  · exact mirrors_leaf hl.sound rfl trivial
  split
  · next hdeclared => exact (h hl hr hfree hdeclared (by simp)).mono (by simp) fun _ _ => id
  split
  · next imported himported => exact .pure (hl.sound.imported name imported himported)
  · exact .bind (mirrors_report _ _) fun _ l₁ h₁ _ =>
      .pure ((h₁.sound hl.sound).table.issued_of_lt (by decide))

theorem Mirror.Exprs.generic (h : M.Exprs lower lower') (hd : M.Declarations declared declared')
    (hl : M.Holds l) {base : TypeExpr} {args : List TypeExpr} {label : Option String}
    (hr : M.ready l (.generic base args label)) :
    Mirrors M (TypeExpr.generic base args label).names l (fun id t => t.Issued id)
      (do
        let args ← args.mapM lower
        genericIn (← get) declared lower base args)
      (fun fuel => do
        let args ← args.mapM (lower' fuel)
        genericIn (← get) (declared' fuel) (lower' fuel) base args) := by
  have hc : M.Covers l (TypeExpr.generic base args label).names (base :: args) :=
    M.covers_parts hr rfl
  have hbase : ∀ name ∈ base.names, name ∈ (TypeExpr.generic base args label).names :=
    fun name hname => List.mem_append_left _ hname
  refine .bind (h.list hl fun type hmem => hc type (List.mem_cons_of_mem _ hmem))
    fun ids l₁ h₁ hids => ?_
  have hl₁ := h₁.holds hl
  suffices hgeneric : Mirrors M (TypeExpr.generic base args label).names l₁
      (fun id t => t.Issued id) (genericIn l₁ declared lower base ids)
      (fun fuel => genericIn l₁ (declared' fuel) (lower' fuel) base ids) from
    hgeneric.get_bind fun fuel r hr => by rw [genericIn, genericIn, (hr.mono hbase).applied?_eq]
  unfold genericIn
  cases happlied : l₁.applied? base with
  | none =>
    refine .bind (h.covered hl₁ (hc.onward h₁) List.mem_cons_self) fun id l₂ h₂ hid => ?_
    refine mirrors_onTable (Table.makes_add (h₂.sound hl₁.sound).table (fun part hpart => ?_) trivial)
    rcases List.mem_cons.mp hpart with rfl | hpart
    · exact hid
    · exact h₂.keeps.table.issued (hids part hpart)
  | some name =>
    cases base with
    | literal name' builtin label optional =>
      simp only [Lowering.applied?, Bool.and_eq_true, Option.isNone_iff_eq_none,
        Option.ite_none_right_eq_some, Option.some.injEq] at happlied
      obtain ⟨⟨hfree, hdeclared⟩, rfl⟩ := happlied
      have hready := (hc.onward h₁ _ List.mem_cons_self).1
      exact (hd hl₁ hready hfree hdeclared hids).mono (by simp) fun _ _ => id
    | _ => cases happlied

/-- One level of an expression is mirrored when its parts and declarations are. -/
theorem Mirror.Exprs.level (h : M.Exprs lower lower') (hd : M.Declarations declared declared') :
    M.Exprs (levelWith declared lower) fun fuel => levelWith (declared' fuel) (lower' fuel) := by
  intro l type hl hr
  cases type with
  | literal name builtin label optional => exact hd.literal hl hr _
  | generic base args label => exact h.generic hd hl hr
  | function args result this label optional generics brand => exact h.function hl hr
  | value value name label => exact mirrors_leaf hl.sound rfl trivial
  | free name => exact mirrors_leaf hl.sound rfl trivial
  | object fields label optional isOpen brand =>
    refine .bind (h.fields hl (M.covers_parts hr rfl)) fun made l₁ h₁ hmade => ?_
    refine mirrors_onTable (Table.makes_add (h₁.sound hl.sound).table (fun part hpart => ?_) trivial)
    obtain ⟨field, hmem, rfl⟩ := List.mem_map.mp hpart
    exact hmade field hmem
  | union members label optional =>
    exact .bind (h.list hl (M.covers_parts hr rfl)) fun ids l₁ h₁ hids =>
      mirrors_onTable (Table.makes_union (h₁.sound hl.sound).table hids)
  | intersection members label optional =>
    exact .bind (h.list hl (M.covers_parts hr rfl)) fun ids l₁ h₁ hids =>
      mirrors_onTable (Table.makes_intersection (h₁.sound hl.sound).table hids)
  | tuple elements label optional =>
    exact .bind (h.list hl (M.covers_parts hr rfl)) fun ids l₁ h₁ hids =>
      mirrors_onTable (Table.makes_add (h₁.sound hl.sound).table hids trivial)
  | renamed name builtin target label optional =>
    refine .bind (h.covered hl (M.covers_parts hr rfl) List.mem_cons_self) fun id l₁ h₁ hid => ?_
    refine mirrors_onTable (Table.makes_add (h₁.sound hl.sound).table (fun part hpart => ?_) trivial)
    cases List.mem_singleton.mp hpart
    exact hid

end

/-! ## Declarations -/

/-- Variables for parameters, all of them types of the table. -/
def Scopes (params : List String) (typeVars : Dict TypeId) (t : Table) : Prop :=
  (∀ name type, typeVars.get? name = some type → t.Issued type) ∧
    ∀ name, (typeVars.get? name).isSome ↔ name ∈ params

theorem mirrors_bindParams (hl : l.Sound) (params : List String) {args : List TypeId}
    (hargs : ∀ arg ∈ args, l.table.Issued arg) :
    Mirrors M names l (Scopes params) (bindParams params args) fun _ => bindParams params args := by
  refine .bind (P := fun pairs t => Binds params pairs t) ?_ fun pairs l₁ _ hpairs =>
    .pure ⟨hpairs.issued, fun name => ⟨hpairs.only name, hpairs.bound⟩⟩
  refine (Mirrors.mapM (P := fun item pair t => pair.1 = item.1 ∧ t.Issued pair.2)
    (fun _ _ _ _ hx => And.imp_right hx.issued) fun item _ l₁ h₁ => ?_).mono (fun _ => id)
    fun pairs t hpairs => ?_
  · obtain ⟨param, i⟩ := item
    simp only
    split
    · next arg harg =>
      exact .pure ⟨rfl, h₁.keeps.table.issued (hargs arg (List.mem_of_getElem? harg))⟩
    · exact .bind (mirrors_leaf (h₁.sound hl) rfl trivial) fun id l₂ _ hid => .pure ⟨rfl, hid⟩
  · have hbinds := binds_of_forall₂ hpairs
    rw [List.zipIdx_map_fst] at hbinds
    exact hbinds

/-- A declaration is no longer in progress. -/
def Lowering.finish (l : Lowering) (key : String) : Lowering :=
  { l with inProgress := l.inProgress.erase key }

/-- The type of a declaration is known from now on. -/
def Lowering.learn (l : Lowering) (name : String) (type : TypeId) : Lowering :=
  { l with resolved := l.resolved.insert name type }

theorem Mirror.Onward.finish {key : String} (h : M.Onward (l.start key) l') :
    M.Onward l (l'.finish key) where
  keeps := by
    have hk := h.keeps
    refine ⟨hk.table, hk.path, hk.declarations, ?_, hk.imported, hk.typeVars, hk.diagnostics⟩
    exact (congrArg (fun keys => keys.erase key) hk.inProgress).trans
      (List.erase_cons_head key l.inProgress)
  resolved := h.resolved
  waiting name hname := h.waiting name (List.mem_cons_of_mem _ hname)
  sound hl :=
    have hl' := h.sound ⟨hl.table, hl.typeVars, hl.resolved, hl.imported⟩
    ⟨hl'.table, hl'.typeVars, hl'.resolved, hl'.imported⟩
  known hknown :=
    have hstart : M.known (l.start key) :=
      M.known_congr hknown (.refl _) rfl rfl rfl rfl (List.prefix_refl _)
    M.known_congr (h.known hstart) (.refl _) rfl rfl rfl rfl (List.prefix_refl _)

/-- A declaration is learned that was not known and is not in progress. -/
theorem Mirror.Onward.learn {name : String} {type : TypeId} (h : M.Onward l l')
    (hnew : l'.resolved.get? name = none) (hfree : name ∉ l.inProgress)
    (hissued : l'.table.Issued type) (hknown : M.known l' → M.known (l'.learn name type)) :
    M.Onward l (l'.learn name type) where
  keeps := ⟨h.keeps.table, h.keeps.path, h.keeps.declarations, h.keeps.inProgress, h.keeps.imported,
    h.keeps.typeVars, h.keeps.diagnostics⟩
  resolved other id hget := by
    have hget' := h.resolved other id hget
    rw [Lowering.learn, Dict.get?_insert, if_neg]
    · exact hget'
    · rintro rfl
      rw [hnew] at hget'
      cases hget'
  waiting other hother := by
    rw [Lowering.learn, Dict.get?_insert, if_neg]
    · exact h.waiting other hother
    · rintro rfl
      exact hfree hother
  sound hl := by
    have hl' := h.sound hl
    refine ⟨hl'.table, hl'.typeVars, fun other id hget => ?_, hl'.imported⟩
    rw [Lowering.learn, Dict.get?_insert] at hget
    split at hget
    · cases hget
      exact hissued
    · exact hl'.resolved other id hget
  known := hknown ∘ h.known

section

variable {lower : TypeExpr → LowerM TypeId} {name : String} {body : TypeExpr} {id : TypeId} {e : Error}

theorem run_whileInProgress {key : String} {m : LowerM α} {result : Except Error α}
    (h : m.run (l.start key) = (result, l')) :
    (whileInProgress key m).run l = (result, l'.finish key) :=
  congrArg (fun run : Except Error α × Lowering => (run.1, run.2.finish key)) h

theorem run_lowerPlain_known (h : l.resolved.get? name = some id) :
    (lowerPlain lower name body).run l = (.ok id, l) := by
  rw [lowerPlain, run_get_bind, h]
  rfl

/-- A declaration without parameters that is reached from its own body stays a name. -/
theorem run_lowerPlain_inProgress (hnew : l.resolved.get? name = none) (h : name ∈ l.inProgress) :
    (lowerPlain lower name body).run l = (onTable fun t => t.literal name false).run l := by
  rw [lowerPlain, run_get_bind, hnew]
  simp only [List.contains_iff_mem.mpr h, if_true]

theorem run_lowerPlain_ok (hnew : l.resolved.get? name = none) (hfree : name ∉ l.inProgress)
    (h : (lower body).run (l.start name) = (.ok id, l')) :
    (lowerPlain lower name body).run l = (.ok id, (l'.finish name).learn name id) := by
  rw [lowerPlain, run_get_bind, hnew]
  simp only [List.contains_iff_mem, hfree, if_false]
  rw [run_bind_ok (run_whileInProgress h)]
  rfl

theorem run_lowerPlain_error (hnew : l.resolved.get? name = none) (hfree : name ∉ l.inProgress)
    (h : (lower body).run (l.start name) = (.error e, l')) :
    (lowerPlain lower name body).run l = (.error e, l'.finish name) := by
  rw [lowerPlain, run_get_bind, hnew]
  simp only [List.contains_iff_mem, hfree, if_false]
  rw [run_bind_error (run_whileInProgress h)]

theorem run_lowerDeclaration {declared : Declared} (hget : l.declarations.get? name = some declared)
    (args : List TypeId) :
    (lowerDeclaration lower name args).run l =
      (if declared.params.isEmpty then lowerPlain lower name declared.body
        else lowerApplied lower name declared args).run l := by
  rw [lowerDeclaration, run_get_bind, hget]

end

/-! ## Headers -/

/-- A lowering in which a header begins. -/
structure Lowering.Begins (l : Lowering) (header : Header) : Prop where
  sound : l.Sound
  declarations : l.declarations = declarationsOf header
  resolved : l.resolved = {}
  inProgress : l.inProgress = []
  typeVars : l.typeVars = []

/-- A header at the beginning, with the built-in types. -/
def beginning (path : String) (header : Header) : Lowering :=
  { table := .initial, path, declarations := declarationsOf header }

theorem begins_beginning (path : String) (header : Header) : (beginning path header).Begins header :=
  ⟨⟨Table.wellFormed_initial, by simp [beginning], nofun, nofun⟩, rfl, rfl, rfl, rfl⟩

/-- A name with the type of its declaration. -/
def typed (declared : String → List TypeId → LowerM TypeId) (name : String) :
    LowerM (String × TypeId) := do
  return (name, ← declared name [])

/-- The types of all declarations, found in turn. -/
def lowerDeclarations (header : Header) : LowerM (List (String × TypeId)) :=
  (declarationsOf header).keys.mapM (typed (lowerDeclaration (lowerWithin (header.size + 1))))

/-- The bindings of all assignments, found in turn. -/
def lowerAssignments (header : Header) : LowerM (List (String × TypeId)) :=
  header.statements.filterMapM fun statement => do
    match statement with
    | .assignment name type => return some (← lowerAssignment (header.size + 1) name type)
    | _ => return none

/-- A header finds the types of its declarations first. -/
theorem run_lowerStatements {header : Header} (hd : l.declarations = declarationsOf header) :
    (lowerStatements header).run l = (do
      let declarations ← lowerDeclarations header
      let assignments ← lowerAssignments header
      return ({ assignments, declarations := Dict.ofList declarations,
                diagnostics := (← get).diagnostics } : Lowered)).run l := by
  rw [lowerStatements, run_get_bind, hd]
  rfl

/-- The types of declarations, which come to them again. -/
structure Mirror.Finds (M : Mirror) (header : Header)
    (declared' : (fuel : Nat) → String → List TypeId → LowerM TypeId) (types : Dict TypeId)
    (l l' : Lowering) : Prop where
  onward : M.Onward l l'
  found : ∀ name, (declarationsOf header).contains name → ∃ type, types.get? name = some type
  again : ∀ name type, types.get? name = some type → l'.table.Issued type ∧
    ∃ reported, (∀ d ∈ reported, d ∈ l'.diagnostics) ∧
      l'.Comes M.resumes [] (fun fuel => declared' fuel name []) (.ok type) reported
  reported : ¬M.resumes → ∀ d ∈ l'.diagnostics, d ∈ l.diagnostics ∨
    ∃ name type reported, (declarationsOf header).contains name ∧ d ∈ reported ∧
      l'.Comes M.resumes [] (fun fuel => declared' fuel name []) (.ok type) reported

variable {declared : String → List TypeId → LowerM TypeId}
  {declared' : Nat → String → List TypeId → LowerM TypeId}

/-- What a name comes to with its type, its declaration comes to. -/
theorem Lowering.Comes.of_typed {resumes : Prop} {name : String} {pair : String × TypeId}
    {reported : List Diagnostic}
    (h : l.Comes resumes names (fun fuel => typed (declared' fuel) name) (.ok pair) reported) :
    l.Comes resumes names (fun fuel => declared' fuel name []) (.ok pair.2) reported := by
  obtain ⟨enough, hcomes⟩ := h
  refine ⟨enough, fun fuel hfuel r hr => ?_⟩
  obtain ⟨a, r', hrun, hpair⟩ := ok_of_run_bind (hcomes fuel hfuel r hr)
  cases hpair
  exact hrun

theorem Lowering.Comes.of_typed_error {resumes : Prop} {name : String} {e : Error}
    {reported : List Diagnostic}
    (h : l.Comes resumes names (fun fuel => typed (declared' fuel) name) (.error e) reported) :
    l.Comes resumes names (fun fuel => declared' fuel name []) (.error e) reported := by
  obtain ⟨enough, hcomes⟩ := h
  refine ⟨enough, fun fuel hfuel r hr => ?_⟩
  have hrun := hcomes fuel hfuel r hr
  change (declared' fuel name [] >>= fun type => pure (name, type)).run r = _ at hrun
  rcases hwork : (declared' fuel name []).run r with ⟨e' | a, r'⟩
  · rw [run_bind_error hwork] at hrun
    cases hrun
    rfl
  · rw [run_bind_ok hwork] at hrun
    cases hrun

theorem contains_of_mem_keys {declarations : Dict Declared} {name : String}
    (h : name ∈ declarations.keys) : declarations.contains name := by
  obtain ⟨declared, hget⟩ := Dict.mem_keys_iff.mp h
  rw [Dict.contains, hget]
  rfl

/-- The name that it was, and a type of the table. -/
def Typed (name : String) (pair : String × TypeId) (t : Table) : Prop :=
  pair.1 = name ∧ t.Issued pair.2

theorem Typed.mono {name : String} {pair : String × TypeId} {t u : Table} (hx : t.Extends u)
    (h : Typed name pair t) : Typed name pair u :=
  ⟨h.1, hx.issued h.2⟩

theorem Mirror.Declarations.typed (h : M.Declarations declared declared') (hl : M.Holds l)
    (hvars : l.typeVars = []) {name : String} (hcontains : l.declarations.contains name = true)
    (hready : M.ready l (.literal name none none false)) :
    Mirrors M [] l (Typed name) (typed declared name) fun fuel => typed (declared' fuel) name := by
  have hfree : l.binding? name = none := by
    rw [Lowering.binding?, hvars]
    rfl
  exact .bind (h hl hready hfree hcontains (by simp)) fun id l₂ _ hid => .pure ⟨rfl, hid⟩

/-- The types of the declarations of a header come again if those of each one do in its turn. -/
theorem MirrorsEach.finds {header : Header}
    (h : MirrorsEach M [] Typed (typed (lowerDeclaration (lowerWithin (header.size + 1))))
      (fun fuel => typed (declared' fuel)) l (declarationsOf header).keys)
    {pairs : List (String × TypeId)} (hrun : (lowerDeclarations header).run l = (.ok pairs, l')) :
    M.Finds header declared' (Dict.ofList pairs) l l' := by
  obtain ⟨honward, outcomes, rfl, hall, hreported⟩ :=
    h.outcomes (fun _ _ _ _ hx => Typed.mono hx) hrun
  have hnames : (outcomes.map Prod.fst).map Prod.fst = (declarationsOf header).keys := by
    have hmap : (declarationsOf header).keys.map id = outcomes.map fun o => o.1.1 :=
      Types.map_eq_of_forall₂ hall fun _ _ ho => ho.1.1.symm
    rw [List.map_map]
    rw [List.map_id] at hmap
    exact hmap.symm
  have hmember : ∀ o ∈ outcomes, ∃ name ∈ (declarationsOf header).keys, o.1.1 = name ∧
      l'.table.Issued o.1.2 ∧ (∀ d ∈ o.2, d ∈ l'.diagnostics) ∧
      l'.Comes M.resumes [] (fun fuel => declared' fuel name []) (.ok o.1.2) o.2 := by
    intro o ho
    obtain ⟨name, hname, ⟨hfst, hissued⟩, hreported, hcomes⟩ := Types.forall_right hall o ho
    exact ⟨name, hname, hfst, hissued, hreported, hcomes.of_typed⟩
  refine ⟨honward, fun name hname => ?_, fun name type hget => ?_, fun hnew d hd => ?_⟩
  · refine Option.isSome_iff_exists.mp (Dict.isSome_get?_ofList ?_)
    rw [hnames, Dict.mem_keys_iff]
    exact Option.isSome_iff_exists.mp hname
  · obtain ⟨o, ho, hpair⟩ := List.mem_map.mp (Dict.mem_of_get?_ofList hget)
    obtain ⟨_, -, rfl, hissued, hreported, hcomes⟩ := hmember o ho
    rw [hpair] at hissued hcomes
    exact ⟨hissued, o.2, hreported, hcomes⟩
  · refine (hreported hnew d hd).imp_right fun ⟨o, ho, hd⟩ => ?_
    obtain ⟨name, hname, -, -, -, hcomes⟩ := hmember o ho
    exact ⟨name, o.1.2, o.2, contains_of_mem_keys hname, hd, hcomes⟩

end HeaderCheck.Header
