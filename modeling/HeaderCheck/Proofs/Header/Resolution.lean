import HeaderCheck.Proofs.Header.Scoping

/-!
# HeaderCheck.Proofs.Header.Resolution

The order in which the definition of a name is looked for, for a name alone and for a name that is
applied.

* `resolve`: the first definition of a name in an order of the places where it may be defined.
* `names_resolve_in_order`: a name alone is looked for in `documentedOrder`. An applied one is
  looked for in `appliedOrder`, where declarations come before built-in types, and finds the same
  unless it is `Torn` between the two.
-/

namespace HeaderCheck.Header

open HeaderCheck.Signature
open HeaderCheck.Types (Table TypeId)

/-- Where a name may be defined. -/
inductive Origin where
  | variables | builtins | declarations | imports
deriving DecidableEq

/-- What a name is defined to be. -/
inductive Definition where
  | variable (type : TypeId)
  | builtin
  | declared
  | imported (type : TypeId)
deriving DecidableEq

/-- The definition of `name` at one place. `builtin` tells that the expression takes the name for a
built-in type. -/
def Lowering.lookIn (l : Lowering) (name : String) (builtin : Bool) : Origin → Option Definition
  | .variables => (l.binding? name).map .variable
  | .builtins =>
    if builtin || Table.sentinelNames.contains name then some .builtin else none
  | .declarations => if l.declarations.contains name then some .declared else none
  | .imports => (l.imported.get? name).map .imported

/-- The first definition of `name` in an order of places. -/
def Lowering.resolve (l : Lowering) (order : List Origin) (name : String) (builtin : Bool) :
    Option Definition :=
  order.findSome? (l.lookIn name builtin)

/-- The order that is meant for every name. -/
def documentedOrder : List Origin :=
  [.variables, .builtins, .declarations, .imports]

/-- The order for a name that is applied to arguments. -/
def appliedOrder : List Origin :=
  [.variables, .declarations, .builtins, .imports]

/-- A name is both a built-in type and a declaration, and no variable hides the two. -/
structure Lowering.Torn (l : Lowering) (name : String) (builtin : Bool) : Prop where
  unbound : l.binding? name = none
  builtin : (builtin || Table.sentinelNames.contains name) = true
  declared : l.declarations.contains name = true

/-- The type of a name that was looked for. One without a definition is reported. -/
def lowerDefinition (lower : TypeExpr → LowerM TypeId) (name : String) :
    Option Definition → LowerM TypeId
  | some (.variable type) | some (.imported type) => return type
  | some .builtin => onTable (·.literal name true)
  | some .declared => lowerDeclaration lower name []
  | none => do
    modify fun s => s.report .unknownLiteral [("literal", name)]
    return .any

/-- The type of a name that was looked for, applied to arguments. Only a declaration takes them
in. -/
def applyDefinition (lower : TypeExpr → LowerM TypeId) (name : String) (args : List TypeId) :
    Option Definition → LowerM TypeId
  | some .declared => lowerDeclaration lower name args
  | found => do
    let base ← lowerDefinition lower name found
    onTable (·.generic base args)

variable {l l' : Lowering} {lower lower' : TypeExpr → LowerM TypeId} {name : String} {builtin : Bool}

/-! ## The two orders -/

/-- Nothing that is looked through changes while expressions are lowered. -/
theorem Lowering.Keeps.resolve_eq (h : l.Keeps l') (order : List Origin) (name : String)
    (builtin : Bool) : l'.resolve order name builtin = l.resolve order name builtin := by
  have hlook : l'.lookIn name builtin = l.lookIn name builtin := by
    funext origin
    cases origin <;>
      simp only [Lowering.lookIn, Lowering.binding?, h.typeVars, h.declarations, h.imported]
  rw [Lowering.resolve, Lowering.resolve, hlook]

theorem Lowering.resolve_torn (h : l.Torn name builtin) :
    l.resolve documentedOrder name builtin = some .builtin ∧
      l.resolve appliedOrder name builtin = some .declared := by
  have hvariables : l.lookIn name builtin .variables = none := by
    rw [Lowering.lookIn, h.unbound, Option.map_none]
  have hbuiltins : l.lookIn name builtin .builtins = some .builtin := by
    rw [Lowering.lookIn, if_pos h.builtin]
  have hdeclarations : l.lookIn name builtin .declarations = some .declared := by
    rw [Lowering.lookIn, if_pos h.declared]
  simp [Lowering.resolve, documentedOrder, appliedOrder, hvariables, hbuiltins, hdeclarations]

/-- The orders differ in two places next to each other, so a name that is not defined in both of
these does not tell them apart. -/
theorem Lowering.resolve_of_not_torn (h : ¬l.Torn name builtin) :
    l.resolve appliedOrder name builtin = l.resolve documentedOrder name builtin := by
  simp only [Lowering.resolve, appliedOrder, documentedOrder, List.findSome?_cons, Lowering.lookIn]
  cases hunbound : l.binding? name with
  | some bound => rfl
  | none =>
    cases hbuiltin : builtin || Table.sentinelNames.contains name with
    | false => rfl
    | true =>
      cases hdeclared : l.declarations.contains name with
      | false => rfl
      | true => exact absurd ⟨hunbound, hbuiltin, hdeclared⟩ h

theorem Lowering.resolve_eq_iff : l.resolve appliedOrder name builtin =
    l.resolve documentedOrder name builtin ↔ ¬l.Torn name builtin := by
  refine ⟨fun heq htorn => ?_, resolve_of_not_torn⟩
  obtain ⟨hdocumented, happlied⟩ := resolve_torn htorn
  rw [hdocumented, happlied] at heq
  cases heq

theorem Lowering.resolve_eq_declared : l.resolve appliedOrder name builtin = some .declared ↔
    l.binding? name = none ∧ l.declarations.contains name = true := by
  simp only [Lowering.resolve, appliedOrder, List.findSome?_cons, Lowering.lookIn]
  cases l.binding? name with
  | some bound => simp
  | none =>
    cases l.declarations.contains name with
    | true => simp
    | false =>
      cases builtin || Table.sentinelNames.contains name <;> cases l.imported.get? name <;> simp

/-! ## Lowering by them -/

theorem run_lowerLiteral (lower : TypeExpr → LowerM TypeId) (l : Lowering) (name : String)
    (builtin : Bool) : (lowerLiteral lower name builtin).run l =
      (lowerDefinition lower name (l.resolve documentedOrder name builtin)).run l := by
  rw [lowerLiteral, run_get_bind]
  simp only [Lowering.resolve, documentedOrder, List.findSome?_cons, Lowering.lookIn]
  cases l.binding? name with
  | some bound => rfl
  | none =>
    cases builtin || Table.sentinelNames.contains name with
    | true => rfl
    | false =>
      cases l.declarations.contains name with
      | true => rfl
      | false => cases l.imported.get? name <;> rfl

/-- What is no declaration has a type without anything being lowered. -/
theorem lowerDefinition_congr {found : Option Definition} (h : found ≠ some .declared) :
    lowerDefinition lower name found = lowerDefinition lower' name found := by
  match found with
  | none | some (.variable _) | some .builtin | some (.imported _) => rfl
  | some .declared => exact absurd rfl h

theorem applyDefinition_of_ne {found : Option Definition} (h : found ≠ some .declared)
    (args : List TypeId) : applyDefinition lower name args found =
      (do
        let base ← lowerDefinition lower name found
        onTable (·.generic base args)) := by
  match found with
  | none | some (.variable _) | some .builtin | some (.imported _) => rfl
  | some .declared => exact absurd rfl h

/-- With its arguments lowered, an applied name is resolved in the order for such names. -/
theorem run_genericIn (fuel : Nat) (l : Lowering) (name : String) (flag : Option Bool)
    (label : Option String) (optional : Bool) (args : List TypeId) :
    (genericIn l (lowerDeclaration (lowerWithin (fuel + 1))) (lowerWithin (fuel + 1))
        (.literal name flag label optional) args).run l =
      (applyDefinition (lowerWithin (fuel + 1)) name args
        (l.resolve appliedOrder name (flag.getD (isBuiltinName name)))).run l := by
  by_cases hdeclared :
      l.resolve appliedOrder name (flag.getD (isBuiltinName name)) = some .declared
  · obtain ⟨hunbound, hcontains⟩ := Lowering.resolve_eq_declared.mp hdeclared
    have happlied : l.applied? (.literal name flag label optional) = some name := by
      simp [Lowering.applied?, hunbound, hcontains]
    rw [genericIn, happlied, hdeclared]
    rfl
  · have hnot := mt Lowering.resolve_eq_declared.mpr hdeclared
    have happlied : l.applied? (.literal name flag label optional) = none := by
      simpa [Lowering.applied?] using hnot
    -- A name that is no declaration when it is applied is none alone either.
    have halike := Lowering.resolve_of_not_torn fun htorn : l.Torn name (flag.getD (isBuiltinName name)) =>
      hnot ⟨htorn.unbound, htorn.declared⟩
    rw [genericIn, happlied, applyDefinition_of_ne hdeclared, run_bind, run_bind]
    have hbase : (lowerWithin (fuel + 1) (.literal name flag label optional)).run l =
        (lowerDefinition (lowerWithin (fuel + 1)) name
          (l.resolve appliedOrder name (flag.getD (isBuiltinName name)))).run l := by
      rw [lowerDefinition_congr hdeclared, halike]
      exact run_lowerLiteral (lowerWithin fuel) l name _
    rw [hbase]

/-- A name alone is looked for in the documented order. An applied name is looked for in an order of
its own, in what is known before its arguments are lowered. The two orders find the same definition
unless the name is torn: then it is a built-in type when it is alone, and a declaration when it is
applied. -/
theorem names_resolve_in_order (l : Lowering) (fuel : Nat) (name : String) (flag : Option Bool)
    (label argsLabel : Option String) (optional : Bool) (args : List TypeExpr)
    (hfuel : typesSize args + l.remaining ≤ fuel + 1) :
    (lowerWithin (fuel + 2) (.literal name flag label optional)).run l =
        (lowerDefinition (lowerWithin (fuel + 1)) name
          (l.resolve documentedOrder name (flag.getD (isBuiltinName name)))).run l ∧
      (lowerWithin (fuel + 2) (.generic (.literal name flag label optional) args argsLabel)).run l =
        (do
          let args ← args.mapM (lowerWithin (fuel + 1))
          applyDefinition (lowerWithin (fuel + 1)) name args
            (l.resolve appliedOrder name (flag.getD (isBuiltinName name)))).run l ∧
      (l.resolve appliedOrder name (flag.getD (isBuiltinName name)) =
          l.resolve documentedOrder name (flag.getD (isBuiltinName name)) ↔
        ¬l.Torn name (flag.getD (isBuiltinName name))) ∧
      (l.Torn name (flag.getD (isBuiltinName name)) →
        l.resolve documentedOrder name (flag.getD (isBuiltinName name)) = some .builtin ∧
          l.resolve appliedOrder name (flag.getD (isBuiltinName name)) = some .declared) := by
  refine ⟨run_lowerLiteral _ l name _, ?_, Lowering.resolve_eq_iff, Lowering.resolve_torn⟩
  have hbelow : LowersBelow (fuel + 1) (lowerWithin (fuel + 1)) (lowerWithin (fuel + 1)) :=
    lowersBelow_lowerWithin (Nat.le_refl _)
  have hkeeps := (hbelow.lowers_mapM hfuel id).safe.keeps
  rw [lowerWithin, lowerLevel_eq, levelWith, run_bind, run_bind]
  rcases hrun : (args.mapM (lowerWithin (fuel + 1))).run l with ⟨e | ids, l'⟩
  · rfl
  · rw [hrun] at hkeeps
    simp only
    rw [run_get_bind, run_genericIn, hkeeps.resolve_eq]

/-- The name `Pair` of a declaration is not torn, and applied to `String` it is the declaration. -/
theorem names_resolve_in_order_tagged :
    typesSize [Build.literal "String"] + (beginning "/t.hjs" tagged).remaining ≤ 20 ∧
      (beginning "/t.hjs" tagged).resolve documentedOrder "Pair" false = some .declared ∧
      (lowerWithin 21 (Build.generic (Build.literal "Pair") [Build.literal "String"])).run
          (beginning "/t.hjs" tagged) =
        (do
          let args ← [Build.literal "String"].mapM (lowerWithin 20)
          lowerDeclaration (lowerWithin 20) "Pair" args).run (beginning "/t.hjs" tagged) := by
  have hfuel : typesSize [Build.literal "String"] + (beginning "/t.hjs" tagged).remaining ≤ 20 := by
    decide +kernel
  obtain ⟨-, hgeneric, halike, -⟩ := names_resolve_in_order (beginning "/t.hjs" tagged) 19 "Pair" none
    none none false [Build.literal "String"] hfuel
  have hnot : ¬(beginning "/t.hjs" tagged).Torn "Pair" ((none : Option Bool).getD (isBuiltinName "Pair")) :=
    fun htorn => absurd htorn.builtin (by decide +kernel)
  have hdocumented : (beginning "/t.hjs" tagged).resolve documentedOrder "Pair"
      ((none : Option Bool).getD (isBuiltinName "Pair")) = some .declared := by decide +kernel
  refine ⟨hfuel, hdocumented, ?_⟩
  rw [halike.mpr hnot, hdocumented] at hgeneric
  exact hgeneric

/-- `Buffer<T>`, declared with the name of a built-in type, is applied to `Number` and stands alone. -/
def buffered : Header :=
  Build.header [
    Build.declaration "Buffer" ["T"] (Build.object [("of", Build.literal "T")]),
    Build.assignment "x" (Build.generic (Build.literal "Buffer") [Build.literal "Number"]),
    Build.assignment "y" (Build.literal "Buffer")]

/-- `Buffer` is torn: `y` is the built-in type, and `x` is the object that `Buffer` is declared to be. -/
theorem name_resolves_otherwise_applied :
    let start := beginning "/app/main.hjs" buffered
    let run := (lowerStatements buffered).run start
    let typeOf := fun name => (run.1.toOption.bind fun lowered => lowered.assignments.lookup name).bind
      run.2.table.lookup
    start.resolve documentedOrder "Buffer" (isBuiltinName "Buffer") = some .builtin ∧
      start.resolve appliedOrder "Buffer" (isBuiltinName "Buffer") = some .declared ∧
      typeOf "y" = some (.literal "Buffer" true) ∧
      typeOf "x" = some (.object ⟨[{ name := "of", type := .number }], false, "Object"⟩) := by
  decide +kernel

end HeaderCheck.Header
