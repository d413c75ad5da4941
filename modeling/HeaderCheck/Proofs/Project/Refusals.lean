import HeaderCheck.Proofs.Builtins
import HeaderCheck.Proofs.Project.Check
import HeaderCheck.Script.Build

/-!
# HeaderCheck.Proofs.Project.Refusals

Scopes refuse to be misused: to restrict a name twice, to restrict `this` or to keep what belongs to
a function outside of one, to take prototypes anywhere but in a file, and to hold two scopes for one
function. Sources never get so far, apart from the last of these.

A call of a function without a type looks the function up before its arguments are verified. If an
argument calls the function too, it has its type and its scope by the time the first call goes on.
Where a function of the same name is declared further out, that one is now typed in its place, and
the scope is made once more. In a tidy program there is no such function.
-/

namespace HeaderCheck.Project

open HeaderCheck.Script

/-- No compile ends because a scope was misused; scopes for functions are made twice only where a
program is not tidy. -/
theorem compile_misuses_no_scope (host : Host) (options : Options) (path : String) :
    (∀ name, ¬FailsWith host options path (.scope (.doubleRestriction name))) ∧
      ¬FailsWith host options path (.scope .cannotRestrictThis) ∧
      ¬FailsWith host options path (.scope .prototypeOutsideFile) ∧
      (∀ scope, ¬FailsWith host options path (.scope (.notInFunction scope))) ∧
      (host.Tidy → ∀ name, ¬FailsWith host options path (.scope (.duplicateFunctionScope name))) := by
  have hexpected : ∀ {e}, FailsWith host options path e → e.Expected host.Tidy :=
    fun h => h.expected id
  refine ⟨?_, ?_, ?_, ?_, ?_⟩
  · exact fun name h => hexpected h
  · exact fun h => hexpected h
  · exact fun h => hexpected h
  · exact fun scope h => hexpected h
  · exact fun htidy name h => hexpected h htidy

/-- A project of one source. -/
def Host.single (program : Program) : Host :=
  Host.addSource {} { path := "/app/main.js", text := "", program }

/-- The function `f` is declared again in `g`, where an argument of a call of it calls it too. -/
def shadowingCall : Program :=
  let identity := Build.functionDecl "f" ["x"] [Build.returns (some (Build.ident "x"))]
  Build.program
    [identity,
      Build.functionDecl "g" []
        [identity,
          Build.returns (some
            (Build.call (Build.ident "f") [Build.call (Build.ident "f") [Build.number 1]]))],
      Build.expression (Build.call (Build.ident "g") []),
      Build.expression (Build.call (Build.ident "f") [Build.number 2])]

/-- The error that ends a compile. -/
def errorOf : Except Error CompileResult → Option Error
  | .ok _ => none
  | .error e => some e

theorem eq_of_errorOf {result : Except Error CompileResult} {e : Error}
    (h : errorOf result = some e) : result = .error e := by
  cases result with
  | ok _ => cases h
  | error e' => exact congrArg Except.error (Option.some.inj h)

/-- The names that stand in a node itself. -/
def namesIn : Node → List String
  | .expr (.identifier id) => [id.name]
  | .expr (.object properties _) => properties.filterMap Property.keyName?
  | .expr (.function f) | .stmt (.function f) => f.name :: f.params.map Identifier.name
  | .stmt (.declaration declaration)
  | .stmt (.forLoop (some (.declaration declaration)) _ _ _ _) =>
    declaration.declarators.map fun declarator => declarator.id.name
  | _ => []

/-- No name of the program has a mark of a place, and yet a scope is made twice. -/
theorem shadowingCall_misuses_scope :
    (∀ n ∈ nodesOf shadowingCall.body, ∀ name ∈ namesIn n, '@' ∉ name.toList) ∧
      FailsWith (.single shadowingCall) {} "/app/main.js" (.scope (.duplicateFunctionScope "f")) := by
  refine ⟨by decide +kernel, ?_⟩
  have herror : errorOf (compileEntry (.single shadowingCall) {} "/app/main.js") =
      some (.scope (.duplicateFunctionScope "f")) := by
    rw [compileEntry, Session.start_eq]
    decide +kernel
  exact Or.inl (eq_of_errorOf herror)

/-- An argument of a call of `f` calls it too, and no other function has its name. -/
def nestedCall : Program :=
  Build.program
    [Build.functionDecl "f" ["x"] [Build.returns (some (Build.ident "x"))],
      Build.expression
        (Build.call (Build.ident "f") [Build.call (Build.ident "f") [Build.number 1]])]

theorem compile_misuses_no_scope_nestedCall :
    (Host.single nestedCall).Tidy ∧
      ∀ name, ¬FailsWith (.single nestedCall) {} "/app/main.js"
        (.scope (.duplicateFunctionScope name)) := by
  have htidy : (Host.single nestedCall).Tidy := by decide +kernel
  exact ⟨htidy, (compile_misuses_no_scope (.single nestedCall) {} "/app/main.js").2.2.2.2 htidy⟩

end HeaderCheck.Project
