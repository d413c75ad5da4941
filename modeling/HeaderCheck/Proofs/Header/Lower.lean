import HeaderCheck.Header.Lower
import HeaderCheck.Proofs.Project.Keeps
import HeaderCheck.Proofs.Types.Growth
import Mathlib.Algebra.GroupWithZero.Nat
import Mathlib.Algebra.Order.BigOperators.Group.List
import Mathlib.Algebra.Order.Group.Nat

/-!
# HeaderCheck.Proofs.Header.Lower

Lowering a header ends.

* `Lowering.remaining`: how many nodes there are in declarations that are not in progress. A
  declaration is lowered only while it is not in progress, so a chain of expressions that lead to
  one another has no more levels than the first one and the remaining declarations have nodes.
* `Lowers l m m'`: the work `m` is done with the fuel it has, and `m'`, which has more, comes to the
  same. `lowersBelow_lowerWithin` gives it for expressions.
* `lowers_lowerStatements`: the fuel that a header gives is enough, and all that changes are types
  and what is known about declarations.
-/

namespace HeaderCheck.Header

open HeaderCheck.Project (Error)
open HeaderCheck.Signature
open HeaderCheck.Types (Table TypeId)

/-! ## What lowering leaves as it is -/

structure Lowering.Keeps (l l' : Lowering) : Prop where
  table : l.table.Extends l'.table
  path : l'.path = l.path
  declarations : l'.declarations = l.declarations
  inProgress : l'.inProgress = l.inProgress
  imported : l'.imported = l.imported
  typeVars : l'.typeVars = l.typeVars
  diagnostics : l.diagnostics <+: l'.diagnostics

instance : Std.Refl Lowering.Keeps :=
  ⟨fun _ => ⟨.refl _, rfl, rfl, rfl, rfl, rfl, List.prefix_refl _⟩⟩

instance : IsTrans Lowering Lowering.Keeps :=
  ⟨fun _ _ _ h h' => ⟨h.table.trans h'.table, h'.path.trans h.path,
    h'.declarations.trans h.declarations, h'.inProgress.trans h.inProgress,
    h'.imported.trans h.imported, h'.typeVars.trans h.typeVars,
    h.diagnostics.trans h'.diagnostics⟩⟩

/-- The work `m` is done with the fuel it has and leaves as it is what it must, and `m'`, which has
more fuel, does just the same. -/
structure Lowers {α : Type} (l : Lowering) (m m' : LowerM α) : Prop where
  safe : Safe Lowering.Keeps Error.Usual l m fun _ _ => True
  same : m'.run l = m.run l

variable {α β : Type} {l : Lowering} {n : Nat}

namespace Lowers

theorem of_safe {m : LowerM α} (h : Safe Lowering.Keeps Error.Usual l m fun _ _ => True) :
    Lowers l m m :=
  ⟨h, rfl⟩

theorem get_bind {f f' : Lowering → LowerM α} (h : Lowers l (f l) (f' l)) :
    Lowers l (get >>= f) (get >>= f') :=
  ⟨h.safe.get_bind, h.same⟩

theorem bind {m m' : LowerM α} {f f' : α → LowerM β} (h : Lowers l m m')
    (hf : ∀ a l', l.Keeps l' → Lowers l' (f a) (f' a)) : Lowers l (m >>= f) (m' >>= f') := by
  refine ⟨h.safe.bind fun a l' hk _ => (hf a l' hk).safe, ?_⟩
  have hkeeps := h.safe.keeps
  rcases hrun : m.run l with ⟨e | a, l'⟩ <;> rw [hrun] at hkeeps
  · rw [run_bind_error hrun, run_bind_error (h.same.trans hrun)]
  · rw [run_bind_ok hrun, run_bind_ok (h.same.trans hrun)]
    exact (hf a l' hkeeps).same

/-- The same work for each member of a list. -/
theorem mapM {γ : Type} {f f' : γ → LowerM β} {items : List γ}
    (h : ∀ x ∈ items, ∀ l', l.Keeps l' → Lowers l' (f x) (f' x)) :
    Lowers l (items.mapM f) (items.mapM f') := by
  induction items generalizing l with
  | nil => exact of_safe (Safe.pure trivial)
  | cons x rest ih =>
    rw [List.mapM_cons, List.mapM_cons]
    refine bind (h x List.mem_cons_self l (Std.Refl.refl l)) fun _ l₁ hk => ?_
    refine bind (ih fun y hy l' hk' => ?_) fun _ _ _ => of_safe (Safe.pure trivial)
    exact h y (List.mem_cons_of_mem _ hy) l' (IsTrans.trans _ _ _ hk hk')

theorem withVariables {typeVars : Dict TypeId} {m m' : LowerM α}
    (h : Lowers { l with typeVars := typeVars :: l.typeVars } m m') :
    Lowers l (withVariables typeVars m) (Header.withVariables typeVars m') := by
  have hk := h.safe.keeps
  refine ⟨⟨⟨hk.table, hk.path, hk.declarations, hk.inProgress, hk.imported, ?_, hk.diagnostics⟩,
    fun _ _ => trivial, h.safe.failure⟩, ?_⟩
  · exact congrArg List.tail hk.typeVars
  · exact congrArg (fun run => (run.1, { run.2 with typeVars := run.2.typeVars.tail })) h.same

theorem whileInProgress {key : String} {m m' : LowerM α}
    (h : Lowers { l with inProgress := key :: l.inProgress } m m') :
    Lowers l (whileInProgress key m) (Header.whileInProgress key m') := by
  have hk := h.safe.keeps
  refine ⟨⟨⟨hk.table, hk.path, hk.declarations, ?_, hk.imported, hk.typeVars, hk.diagnostics⟩,
    fun _ _ => trivial, h.safe.failure⟩, ?_⟩
  · exact (congrArg (fun keys => keys.erase key) hk.inProgress).trans
      (List.erase_cons_head key l.inProgress)
  · exact congrArg
      (fun run => (run.1, { run.2 with inProgress := run.2.inProgress.erase key })) h.same

end Lowers

theorem lowers_pure (a : α) : Lowers l (pure a) (pure a) :=
  .of_safe (Safe.pure trivial)

theorem lowers_modify {f : Lowering → Lowering} (h : l.Keeps (f l)) :
    Lowers l (modify f : LowerM Unit) (modify f) :=
  .of_safe (.modify h trivial)

theorem lowers_onTable {f : Table → α × Table} (hgrow : ∀ t : Table, t.Extends (f t).2) :
    Lowers l (onTable f) (onTable f) :=
  .of_safe (.modifyGet ⟨hgrow l.table, rfl, rfl, rfl, rfl, rfl, List.prefix_refl _⟩ trivial)

/-! ## Declarations that are left -/

/-- The key of a declaration among those in progress. -/
def Declared.key (declared : Declared) (name : String) : String :=
  if declared.params.isEmpty then name else appliedKey name

/-- How many nodes there are in declarations that are not in progress. -/
def Lowering.remaining (l : Lowering) : Nat :=
  ((l.declarations.entries.filter fun entry =>
    !l.inProgress.contains (entry.2.key entry.1)).map fun entry => entry.2.body.size).sum

theorem Lowering.remaining_congr {l l' : Lowering} (hd : l'.declarations = l.declarations)
    (hp : l'.inProgress = l.inProgress) : l'.remaining = l.remaining := by
  simp only [Lowering.remaining, hd, hp]

theorem Lowering.Keeps.remaining_eq {l l' : Lowering} (h : l.Keeps l') :
    l'.remaining = l.remaining :=
  Lowering.remaining_congr h.declarations h.inProgress

/-- A member that only the weaker of two tests admits counts in its sum only. -/
theorem sum_filter_add_le {γ : Type} {entries : List γ} {strong weak : γ → Bool} {f : γ → Nat}
    (himp : ∀ x, strong x → weak x) {x : γ} (hx : x ∈ entries) (hs : strong x = false)
    (hw : weak x = true) :
    ((entries.filter strong).map f).sum + f x ≤ ((entries.filter weak).map f).sum := by
  have hmono : ∀ l : List γ, ((l.filter strong).map f).sum ≤ ((l.filter weak).map f).sum := by
    intro l
    exact ((List.monotone_filter_right l himp).map f).sum_le_sum (by simp)
  induction entries with
  | nil => cases hx
  | cons first rest ih =>
    rcases List.mem_cons.mp hx with rfl | hx
    · have hrest := hmono rest
      simp only [List.filter_cons, hs, hw, if_true, Bool.false_eq_true, if_false, List.map_cons,
        List.sum_cons]
      omega
    · have hrest := ih hx
      cases hfirst : strong first with
      | true =>
        simp only [List.filter_cons, hfirst, himp first hfirst, if_true, List.map_cons,
          List.sum_cons]
        omega
      | false =>
        simp only [List.filter_cons, hfirst, Bool.false_eq_true, if_false]
        split
        · simp only [List.map_cons, List.sum_cons]
          omega
        · exact hrest

/-- A declaration that gets in progress is no longer left. -/
theorem Lowering.remaining_start {name : String} {declared : Declared}
    (hget : l.declarations.get? name = some declared)
    (hfree : l.inProgress.contains (declared.key name) = false) :
    ({ l with inProgress := declared.key name :: l.inProgress } : Lowering).remaining +
      declared.body.size ≤ l.remaining := by
  refine sum_filter_add_le (x := (name, declared)) ?_ (Dict.mem_entries_of_get? hget) ?_ ?_
  · intro entry hentry
    simp only [List.contains_cons, Bool.not_or, Bool.and_eq_true] at hentry
    exact hentry.2
  · simp
  · simp only [hfree, Bool.not_false]

/-! ## Expressions -/

/-- Expressions are lowered when `n` levels suffice for them and for what is left. -/
def LowersBelow (n : Nat) (lower lower' : TypeExpr → LowerM TypeId) : Prop :=
  ∀ {l type}, type.size + l.remaining ≤ n → Lowers l (lower type) (lower' type)

variable {lower lower' : TypeExpr → LowerM TypeId}

theorem lowers_bindParams (params : List String) (args : List TypeId) :
    Lowers l (bindParams params args) (bindParams params args) := by
  refine Lowers.bind (.mapM fun param _ l' _ => ?_) fun _ _ _ => lowers_pure _
  obtain ⟨param, i⟩ := param
  simp only
  split
  · exact lowers_pure _
  · exact Lowers.bind (lowers_onTable fun t => t.extends_add _) fun _ _ _ => lowers_pure _

theorem LowersBelow.lowers_declaration (h : LowersBelow n lower lower') (hn : l.remaining ≤ n)
    (name : String) (args : List TypeId) :
    Lowers l (lowerDeclaration lower name args) (lowerDeclaration lower' name args) := by
  refine .get_bind ?_
  split
  · exact lowers_pure _
  next declared hget =>
  have hbody : ∀ {l' : Lowering}, l.inProgress.contains (declared.key name) = false →
      l'.declarations = l.declarations → l'.inProgress = declared.key name :: l.inProgress →
      Lowers l' (lower declared.body) (lower' declared.body) := by
    intro l' hfree hd hp
    refine h ?_
    have := Lowering.remaining_start hget hfree
    have hcongr := Lowering.remaining_congr
      (l := { l with inProgress := declared.key name :: l.inProgress }) hd hp
    omega
  split
  · next hparams =>
    have hkey : declared.key name = name := by simp [Declared.key, hparams]
    rw [hkey] at hbody
    refine .get_bind ?_
    split
    · exact lowers_pure _
    split
    · exact lowers_onTable fun t => t.extends_add _
    · next hfree =>
      refine Lowers.bind (.whileInProgress (hbody (by simpa using hfree) rfl rfl))
        fun lowered l' _ => ?_
      exact Lowers.bind (lowers_modify ⟨.refl _, rfl, rfl, rfl, rfl, rfl, List.prefix_refl _⟩)
        fun _ _ _ => lowers_pure _
  · next hparams =>
    have hkey : declared.key name = appliedKey name := by simp [Declared.key, hparams]
    rw [hkey] at hbody
    refine .get_bind ?_
    split
    · exact lowers_onTable fun t => t.extends_add _
    · next hfree =>
      refine Lowers.whileInProgress (Lowers.bind (lowers_bindParams _ _) fun typeVars l' hk => ?_)
      exact Lowers.withVariables (hbody (by simpa using hfree) hk.declarations hk.inProgress)

theorem LowersBelow.lowers_literal (h : LowersBelow n lower lower') (hn : l.remaining ≤ n)
    (name : String) (builtin : Bool) :
    Lowers l (lowerLiteral lower name builtin) (lowerLiteral lower' name builtin) := by
  refine .get_bind ?_
  split
  · exact lowers_pure _
  split
  · exact lowers_onTable fun t => t.extends_add _
  split
  · exact h.lowers_declaration hn name []
  split
  · exact lowers_pure _
  · exact Lowers.bind (lowers_modify ⟨.refl _, rfl, rfl, rfl, rfl, rfl, List.prefix_append _ _⟩)
      fun _ _ _ => lowers_pure _

theorem size_le_typesSize {types : List TypeExpr} {type : TypeExpr} (h : type ∈ types) :
    type.size ≤ typesSize types := by
  induction types with
  | nil => cases h
  | cons first rest ih =>
    rw [typesSize]
    rcases List.mem_cons.mp h with rfl | h
    · omega
    · have := ih h
      omega

theorem size_le_keyValuesSize {fields : List KeyValue} {field : KeyValue} (h : field ∈ fields) :
    field.value.size ≤ keyValuesSize fields := by
  induction fields with
  | nil => cases h
  | cons first rest ih =>
    rw [keyValuesSize]
    rcases List.mem_cons.mp h with rfl | h
    · obtain ⟨key, value, optional⟩ := field
      simp only [KeyValue.size]
      omega
    · have := ih h
      omega

/-- The members of a list of expressions, whatever is made of each of them. -/
theorem LowersBelow.lowers_mapM (h : LowersBelow n lower lower') {types : List TypeExpr}
    (hn : typesSize types + l.remaining ≤ n) {f f' : TypeExpr → LowerM β}
    (hf : ∀ {l type}, Lowers l (lower type) (lower' type) → Lowers l (f type) (f' type)) :
    Lowers l (types.mapM f) (types.mapM f') := by
  refine .mapM fun type hmem l' hk => hf (h ?_)
  have := size_le_typesSize hmem
  rw [hk.remaining_eq]
  omega

theorem LowersBelow.lowers_generic (h : LowersBelow n lower lower') {base : TypeExpr}
    {args : List TypeExpr} (hn : base.size + typesSize args + l.remaining ≤ n) :
    Lowers l (lowerGeneric lower base args) (lowerGeneric lower' base args) := by
  refine Lowers.bind (h.lowers_mapM (by omega) id) fun args l₁ hk => .get_bind ?_
  have hremaining := hk.remaining_eq
  simp only
  split
  · exact h.lowers_declaration (by omega) _ _
  · exact Lowers.bind (h (by omega)) fun _ _ _ => lowers_onTable fun t => t.extends_add _

theorem LowersBelow.lowers_parts (h : LowersBelow n lower lower') {args : List TypeExpr}
    {this : Option TypeExpr} {result : TypeExpr}
    (hn : typesSize args + result.size + typeSize? this + l.remaining ≤ n) :
    Lowers l (lowerParts lower args this result) (lowerParts lower' args this result) := by
  refine Lowers.bind (h.lowers_mapM (by omega) fun hlower => ?_) fun params l₁ hk₁ => ?_
  · exact Lowers.bind hlower fun _ _ _ => lowers_pure _
  have hremaining := hk₁.remaining_eq
  have hthis : Lowers l₁ (lowerOptional lower this) (lowerOptional lower' this) := by
    cases this with
    | none => exact lowers_pure _
    | some this =>
      rw [typeSize?] at hn
      exact Lowers.bind (h (by omega)) fun _ _ _ => lowers_pure _
  refine Lowers.bind hthis fun this l₂ hk₂ => ?_
  have hremaining₂ := hk₂.remaining_eq
  exact Lowers.bind (h (by omega)) fun _ _ _ => lowers_pure _

theorem safe_except {result : Except Error α} (h : ∀ e, result = .error e → e.Usual) :
    Safe Lowering.Keeps Error.Usual l (ExceptT.mk (pure result) : LowerM α) fun _ _ => True := by
  cases result with
  | ok a => exact Safe.pure trivial
  | error e => exact Safe.throw (h e rfl)

theorem safe_occurrence (descriptor : Descriptor) :
    Safe Lowering.Keeps Error.Usual l
      (ExceptT.mk (pure (lowerOccurrence descriptor)) : LowerM Types.Occurrence) fun _ _ => True := by
  refine safe_except fun e he => ?_
  unfold lowerOccurrence at he
  split at he <;> cases he
  exact trivial

theorem safe_checkInside (table : Table) (function : TypeId) (descriptor : Descriptor)
    (occurrence : Types.Occurrence) :
    Safe Lowering.Keeps Error.Usual l
      (ExceptT.mk (pure (checkInside table function descriptor occurrence)) : LowerM Unit)
      fun _ _ => True := by
  refine safe_except fun e he => ?_
  unfold checkInside at he
  split at he <;> cases he
  exact trivial

/-- What follows the parts of a function lowers nothing. -/
def functionOf (generics : List Descriptor) (brand : String)
    (parts : List Types.Param × Option TypeId × TypeId) : LowerM TypeId := do
  let occurrences ← generics.mapM fun descriptor => ExceptT.mk (pure (lowerOccurrence descriptor))
  let id ← onTable fun t => t.function
    { params := parts.1, result := parts.2.2, this := parts.2.1, generics := occurrences, brand }
  let table := (← get).table
  (generics.zip occurrences).forM fun (descriptor, occurrence) =>
    ExceptT.mk (pure (checkInside table id descriptor occurrence))
  return id

/-- The type variables of a function, each of them free. -/
def variablesOf (generics : List Descriptor) : LowerM (List (String × TypeId)) :=
  generics.mapM fun descriptor => do
    return (descriptor.name, ← onTable fun t => t.free descriptor.name)

theorem lowerFunction_eq (lower : TypeExpr → LowerM TypeId) (args : List TypeExpr)
    (result : TypeExpr) (this : Option TypeExpr) (generics : List Descriptor) (brand : String) :
    lowerFunction lower args result this generics brand =
      variablesOf generics >>= fun typeVars =>
        (if generics.isEmpty then lowerParts lower args this result
          else withVariables (Dict.ofList typeVars) (lowerParts lower args this result)) >>=
            functionOf generics brand := by
  unfold lowerFunction
  cases generics.isEmpty <;> rfl

theorem lowers_functionOf (generics : List Descriptor) (brand : String)
    (parts : List Types.Param × Option TypeId × TypeId) :
    Lowers l (functionOf generics brand parts) (functionOf generics brand parts) := by
  refine Lowers.bind (.of_safe (.mapM fun descriptor _ _ _ => safe_occurrence descriptor))
    fun occurrences _ _ => ?_
  refine Lowers.bind (lowers_onTable fun t => t.extends_add _) fun id _ _ => .get_bind ?_
  exact Lowers.bind (.of_safe (.forM fun pair _ _ _ => safe_checkInside _ id pair.1 pair.2))
    fun _ _ _ => lowers_pure _

theorem lowers_variablesOf (generics : List Descriptor) :
    Lowers l (variablesOf generics) (variablesOf generics) :=
  .mapM fun _ _ _ _ =>
    Lowers.bind (lowers_onTable fun t => t.extends_add _) fun _ _ _ => lowers_pure _

theorem LowersBelow.lowers_function (h : LowersBelow n lower lower') {args : List TypeExpr}
    {this : Option TypeExpr} {result : TypeExpr} (generics : List Descriptor) (brand : String)
    (hn : typesSize args + result.size + typeSize? this + l.remaining ≤ n) :
    Lowers l (lowerFunction lower args result this generics brand)
      (lowerFunction lower' args result this generics brand) := by
  rw [lowerFunction_eq, lowerFunction_eq]
  refine Lowers.bind (lowers_variablesOf generics) fun typeVars l₁ hk₁ => ?_
  have hremaining := hk₁.remaining_eq
  refine Lowers.bind ?_ fun parts _ _ => lowers_functionOf generics brand parts
  split
  · exact h.lowers_parts (by omega)
  · refine Lowers.withVariables (h.lowers_parts ?_)
    change _ + l₁.remaining ≤ n
    omega

theorem LowersBelow.lowers_level (h : LowersBelow n lower lower') {type : TypeExpr}
    (hn : type.size + l.remaining ≤ n + 1) :
    Lowers l (lowerLevel lower type) (lowerLevel lower' type) := by
  cases type with
  | literal name builtin label optional =>
    rw [TypeExpr.size] at hn
    exact h.lowers_literal (by omega) name _
  | value value name label => exact lowers_onTable fun t => t.extends_add _
  | object fields label optional isOpen brand =>
    rw [TypeExpr.size] at hn
    refine Lowers.bind (.mapM fun field hmem l' hk => ?_) fun _ _ _ =>
      lowers_onTable fun t => t.extends_add _
    have hsize := size_le_keyValuesSize hmem
    have hremaining := hk.remaining_eq
    exact Lowers.bind (h (by omega)) fun _ _ _ => lowers_pure _
  | union members label optional =>
    rw [TypeExpr.size] at hn
    exact Lowers.bind (h.lowers_mapM (by omega) id) fun _ _ _ =>
      lowers_onTable fun t => t.extends_union _
  | intersection members label optional =>
    rw [TypeExpr.size] at hn
    exact Lowers.bind (h.lowers_mapM (by omega) id) fun _ _ _ =>
      lowers_onTable fun t => t.extends_intersection _
  | function args result this label optional generics brand =>
    rw [TypeExpr.size] at hn
    exact h.lowers_function generics brand (by omega)
  | generic base args label =>
    rw [TypeExpr.size] at hn
    exact h.lowers_generic (by omega)
  | tuple elements label optional =>
    rw [TypeExpr.size] at hn
    exact Lowers.bind (h.lowers_mapM (by omega) id) fun _ _ _ =>
      lowers_onTable fun t => t.extends_add _
  | renamed name builtin target label optional =>
    rw [TypeExpr.size] at hn
    exact Lowers.bind (h (by omega)) fun _ _ _ => lowers_onTable fun t => t.extends_add _
  | free name => exact lowers_onTable fun t => t.extends_add _

theorem size_pos (type : TypeExpr) : 0 < type.size := by
  cases type <;> simp [TypeExpr.size]

/-- Fuel for an expression and for all declarations that are left is enough. -/
theorem lowersBelow_lowerWithin {fuel more : Nat} (hmore : fuel ≤ more) :
    LowersBelow fuel (lowerWithin fuel) (lowerWithin more) := by
  induction fuel generalizing more with
  | zero =>
    intro l type hn
    have := size_pos type
    omega
  | succ fuel ih =>
    intro l type hn
    obtain ⟨more, rfl⟩ := Nat.exists_eq_add_one_of_ne_zero (Nat.ne_zero_of_lt hmore)
    have hbelow : LowersBelow fuel (lowerWithin fuel) (lowerWithin more) :=
      ih (Nat.le_of_succ_le_succ hmore)
    exact hbelow.lowers_level hn

/-! ## Headers -/

/-- How many nodes the bodies of declarations have. -/
def bodiesSize (entries : List (String × Declared)) : Nat :=
  (entries.map fun entry => entry.2.body.size).sum

theorem bodiesSize_put_le (name : String) (declared : Declared)
    (entries : List (String × Declared)) :
    bodiesSize (Dict.put name declared entries) ≤ bodiesSize entries + declared.body.size := by
  induction entries with
  | nil => simp [bodiesSize, Dict.put]
  | cons first rest ih =>
    obtain ⟨key, old⟩ := first
    simp only [bodiesSize] at ih
    rw [Dict.put]
    split <;> simp only [bodiesSize, List.map_cons, List.sum_cons] <;> omega

theorem bodiesSize_ofList_le (pairs : List (String × Declared)) :
    bodiesSize (Dict.ofList pairs).entries ≤ bodiesSize pairs := by
  have hfold : ∀ d : Dict Declared,
      bodiesSize (pairs.foldl (fun d pair => d.insert pair.1 pair.2) d).entries ≤
        bodiesSize d.entries + bodiesSize pairs := by
    induction pairs with
    | nil =>
      intro d
      simp
    | cons first rest ih =>
      intro d
      have hput := bodiesSize_put_le first.1 first.2 d.entries
      have hrest := ih (d.insert first.1 first.2)
      have hcons : bodiesSize (first :: rest) = first.2.body.size + bodiesSize rest := by
        simp [bodiesSize]
      simp only [List.foldl_cons, Dict.insert] at hrest ⊢
      omega
  have hempty : bodiesSize (Dict.empty : Dict Declared).entries = 0 := rfl
  have := hfold .empty
  rw [hempty, Nat.zero_add] at this
  exact this

theorem bodiesSize_le (statements : List Statement) :
    bodiesSize (statements.filterMap declaration?) ≤ statementsSize statements := by
  induction statements with
  | nil => simp [bodiesSize]
  | cons first rest ih =>
    simp only [bodiesSize] at ih
    cases first <;>
      simp only [bodiesSize, List.filterMap_cons, declaration?, List.map_cons, List.sum_cons,
        statementsSize, Statement.size] <;>
      omega

/-- An assignment and all declarations of a header have together no more nodes than the header. -/
theorem size_add_bodiesSize_le {statements : List Statement} {name : String} {type : TypeExpr}
    (h : .assignment name type ∈ statements) :
    type.size + bodiesSize (statements.filterMap declaration?) ≤ statementsSize statements := by
  induction statements with
  | nil => cases h
  | cons first rest ih =>
    have hrest := bodiesSize_le rest
    rcases List.mem_cons.mp h with rfl | h
    · simp only [List.filterMap_cons, declaration?, statementsSize, Statement.size]
      omega
    · have := ih h
      simp only [bodiesSize] at this
      cases first <;>
        simp only [bodiesSize, List.filterMap_cons, declaration?, List.map_cons, List.sum_cons,
          statementsSize, Statement.size] <;>
        omega

theorem remaining_le {header : Header} (hd : l.declarations = declarationsOf header) :
    l.remaining ≤ bodiesSize (header.statements.filterMap declaration?) := by
  have hsub : (l.declarations.entries.filter fun entry =>
      !l.inProgress.contains (entry.2.key entry.1)).Sublist l.declarations.entries :=
    List.filter_sublist
  calc l.remaining
      ≤ bodiesSize l.declarations.entries := (hsub.map _).sum_le_sum (by simp)
    _ ≤ bodiesSize (header.statements.filterMap declaration?) := by
      rw [hd]
      exact bodiesSize_ofList_le _

theorem extends_brandConstructor (t : Table) (name : String) (type : TypeId) :
    t.Extends (brandConstructor t name type).2 := by
  unfold brandConstructor
  split
  · exact .refl t
  split
  · exact .refl t
  split
  · exact (t.extends_withBrand _ name).trans (Table.extends_add _ _)
  · exact .refl t

/-- The name that a statement assigns. -/
def assignedName? : Statement → Option String
  | .assignment name _ => some name
  | _ => none

/-- The names that a header assigns, in order. -/
def assignedNames (header : Header) : List String :=
  header.statements.filterMap assignedName?

/-- What is kept of statements are bindings of the names that they assign. -/
theorem map_fst_kept {statements : List Statement} {kept : List (Option (String × TypeId))}
    (h : List.Forall₂ (fun statement binding => binding.map Prod.fst = assignedName? statement)
      statements kept) :
    (kept.filterMap id).map Prod.fst = statements.filterMap assignedName? := by
  induction h with
  | nil => rfl
  | @cons statement binding _ _ hfirst _ ih =>
    rw [List.filterMap_cons, List.filterMap_cons, ← hfirst]
    cases binding with
    | none => exact ih
    | some binding => exact congrArg (binding.1 :: ·) ih

/-- A header is lowered with the fuel that it gives. It binds the names that it assigns and hands on
what has been reported. -/
theorem lowers_lowerStatements {header : Header} (hd : l.declarations = declarationsOf header) :
    Safe Lowering.Keeps Error.Usual l (lowerStatements header) fun lowered l' =>
      lowered.assignments.map Prod.fst = assignedNames header ∧
        lowered.diagnostics = l'.diagnostics := by
  have hfuel : LowersBelow (header.size + 1) (lowerWithin (header.size + 1))
      (lowerWithin (header.size + 1)) := lowersBelow_lowerWithin (Nat.le_refl _)
  have hsize : header.size = statementsSize header.statements := rfl
  have hremaining : ∀ {l' : Lowering}, l.Keeps l' →
      l'.remaining ≤ bodiesSize (header.statements.filterMap declaration?) :=
    fun hk => remaining_le (hk.declarations.trans hd)
  have hbodies := bodiesSize_le header.statements
  refine .get_bind (Safe.bind (.mapM fun name _ l' hk => ?_) fun declarations l₁ hk₁ _ => ?_)
  · have := hremaining hk
    exact Safe.bind (hfuel.lowers_declaration (by omega) name []).safe fun _ _ _ _ => .pure trivial
  refine Safe.bind (Safe.filterMapM
    (P := fun statement binding => binding.map Prod.fst = assignedName? statement)
    fun statement hmem l' hk => ?_) fun assignments l₂ _ ⟨kept, hkept, hassignments⟩ => ?_
  · cases statement with
    | assignment name type =>
      have hassigned := size_add_bodiesSize_le hmem
      have := hremaining (IsTrans.trans _ _ _ hk₁ hk)
      have hbinding : Safe Lowering.Keeps Error.Usual l' (lowerAssignment (header.size + 1) name type)
          fun binding _ => binding.1 = name := by
        rw [lowerAssignment]
        split
        · exact Safe.of_error rfl (Std.Refl.refl _) trivial
        refine Safe.bind (hfuel (by omega)).safe fun type l₂ _ _ => ?_
        split
        · exact Safe.bind (lowers_onTable fun t => extends_brandConstructor t name type).safe
            fun _ _ _ _ => .pure rfl
        · exact .pure rfl
      exact Safe.bind hbinding fun binding _ _ hname => .pure (congrArg some hname)
    | declaration name body generics => exact .pure rfl
    | imports dependency types => exact .pure rfl
    | comment text => exact .pure rfl
  · rw [hassignments]
    exact .get_bind (.pure ⟨map_fst_kept hkept, rfl⟩)

end HeaderCheck.Header
