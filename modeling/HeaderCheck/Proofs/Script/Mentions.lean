import HeaderCheck.Proofs.Script.Nodes
import Mathlib.Logic.Relation

/-!
# HeaderCheck.Proofs.Script.Mentions

The names that a piece of a program may come to deal with.

* `Node.mentions`: the names that stand in a node, the bodies of functions included. The name of a
  field is none of them.
* `Program.Reaches`: besides, the names in functions of the program whose names it reaches. A visit
  of the node deals with no other name, whatever calls cause to be verified on the way.
* `Program.Nests`, `Program.SelfStarts`, `Program.Collides`: what has to be in a program for a scope
  to refuse it a name.
-/

namespace HeaderCheck.Script

open Relation (ReflTransGen)

namespace Node

/-! ## Names in a node -/

/-- The variables that a node declares. -/
def declarators : Node → List Declarator
  | .stmt (.declaration declaration) => declaration.declarators
  | .stmt (.forLoop (some (.declaration declaration)) _ _ _ _) => declaration.declarators
  | _ => []

/-- The names that a node itself looks up or binds. -/
def names : Node → List String
  | .expr (.identifier id) => [id.name]
  | .expr (.function f) => f.params.map Identifier.name
  | .stmt (.function f) => f.name :: f.params.map Identifier.name
  | n => n.declarators.map fun declarator => declarator.id.name

/-- The parts of a node that are visited. The name of a field is not. -/
def visited : Node → List Node
  | .expr (.member object _ false _) => [.expr object]
  | n => n.parts

theorem visited_subset (n : Node) : n.visited ⊆ n.parts := by
  unfold visited
  split
  · exact List.cons_subset_cons _ (List.nil_subset _)
  · exact List.Subset.refl _

/-- The names in a node and in all nodes below it. -/
def mentions (n : Node) : List String :=
  n.names ++ (n.visited.attach.flatMap (fun part => mentions part.1) ++
    n.body.attach.flatMap fun s => mentions (stmt s.1))
termination_by n.size
decreasing_by
  · exact size_lt_of_mem_parts (n.visited_subset part.2)
  · exact size_lt_of_mem_body s.2

theorem mentions_eq (n : Node) :
    n.mentions = n.names ++ (n.visited.flatMap mentions ++ n.body.flatMap fun s => mentions (stmt s)) := by
  rw [mentions]
  simp [List.flatMap]

variable {n : Node}

theorem names_subset_mentions (n : Node) : n.names ⊆ n.mentions := by
  rw [mentions_eq]
  exact List.subset_append_left _ _

theorem mentions_of_visited {part : Node} (h : part ∈ n.visited) : part.mentions ⊆ n.mentions := by
  intro name hname
  rw [mentions_eq, List.mem_append, List.mem_append, List.mem_flatMap]
  exact .inr (.inl ⟨part, h, hname⟩)

theorem mentions_of_body {s : Stmt} (h : s ∈ n.body) : (stmt s).mentions ⊆ n.mentions := by
  intro name hname
  rw [mentions_eq, List.mem_append, List.mem_append, List.mem_flatMap, List.mem_flatMap]
  exact .inr (.inr ⟨s, h, hname⟩)

theorem mem_names_of_declarator {declarator : Declarator} (h : declarator ∈ n.declarators) :
    declarator.id.name ∈ n.names := by
  unfold declarators at h
  split at h
  · exact List.mem_map_of_mem h
  · exact List.mem_map_of_mem h
  · cases h

theorem mem_visited_of_declarator {declarator : Declarator} (h : declarator ∈ n.declarators)
    {init : Expr} (hinit : declarator.init = some init) : expr init ∈ n.visited := by
  have hinitial {declarators : List Declarator} (h : declarator ∈ declarators) :
      expr init ∈ initials declarators :=
    List.mem_flatMap.mpr ⟨declarator, h, by simp [hinit]⟩
  unfold declarators at h
  split at h
  · exact hinitial h
  · refine List.mem_cons_of_mem _ (List.mem_append_left _ (List.mem_append_left _ (hinitial h)))
  · cases h

end Node

theorem mem_nodesOf_of_part {body : List Stmt} {n part : Node} (hn : n ∈ nodesOf body)
    (hp : part ∈ n.parts) : part ∈ nodesOf body := by
  obtain ⟨s, hs, hn⟩ := List.mem_flatMap.mp hn
  exact List.mem_flatMap.mpr ⟨s, hs, Node.mem_nodes_of_part hn hp⟩

theorem mem_nodesOf_of_body {body : List Stmt} {n : Node} {s : Stmt} (hn : n ∈ nodesOf body)
    (hs : s ∈ n.body) : Node.stmt s ∈ nodesOf body := by
  obtain ⟨first, hfirst, hn⟩ := List.mem_flatMap.mp hn
  exact List.mem_flatMap.mpr ⟨first, hfirst, Node.mem_nodes_of_body hn hs⟩

/-! ## Names in reach -/

namespace Program

/-- The program declares the function, at any depth. -/
def Declares (program : Program) (f : Function) : Prop :=
  (.declared, f) ∈ functionsOf program.body

/-- The name stands in a function of the program that is called `caller`. -/
def Uses (program : Program) (caller name : String) : Prop :=
  ∃ f, program.Declares f ∧ f.name = caller ∧ name ∈ (Node.stmt (.function f)).mentions

/-- The name stands in the node, or in a function whose name it reaches. -/
def Reaches (program : Program) (n : Node) (name : String) : Prop :=
  ∃ first ∈ n.mentions, ReflTransGen program.Uses first name

/-- With the name of a function a set of names has all names in it. -/
def Closed (program : Program) (names : String → Prop) : Prop :=
  ∀ f, program.Declares f → names f.name → ∀ name ∈ (Node.stmt (.function f)).mentions, names name

variable {program : Program} {names : String → Prop} {n : Node} {name : String}

theorem reaches_of_mentions (h : name ∈ n.mentions) : program.Reaches n name :=
  ⟨name, h, .refl⟩

/-- What a node reaches is closed. -/
theorem closed_reaches (program : Program) (n : Node) : program.Closed (program.Reaches n) := by
  rintro f hf ⟨first, hfirst, hreach⟩ name hname
  exact ⟨first, hfirst, hreach.tail ⟨f, hf, rfl, hname⟩⟩

/-- What one of several nodes reaches is closed. -/
theorem closed_reaches_any (program : Program) (nodes : List Node) :
    program.Closed fun name => ∃ n ∈ nodes, program.Reaches n name := by
  rintro f hf ⟨n, hn, hreach⟩ name hname
  exact ⟨n, hn, closed_reaches program n f hf hreach name hname⟩

/-- Nothing outside a closed set is reached from inside. -/
theorem Closed.of_reaches (hc : program.Closed names) (hn : ∀ first ∈ n.mentions, names first)
    (h : program.Reaches n name) : names name := by
  obtain ⟨first, hfirst, hreach⟩ := h
  induction hreach with
  | refl => exact hn first hfirst
  | tail _ huses ih =>
    obtain ⟨f, hf, rfl, hname⟩ := huses
    exact hc f hf ih _ hname

theorem closed_of_functions {closed : List String}
    (h : ∀ f ∈ functionsOf program.body, f.2.name ∈ closed →
      (Node.stmt (.function f.2)).mentions ⊆ closed) : program.Closed (· ∈ closed) :=
  fun _ hf hname _ hmem => h _ hf hname hmem

theorem Declares.mem_nodesOf {f : Function} (h : program.Declares f) :
    Node.stmt (.function f) ∈ nodesOf program.body := by
  obtain ⟨n, hn, hf⟩ := List.mem_filterMap.mp h
  have hnode : n = .stmt (.function f) := by
    cases n with
    | expr e => cases e <;> cases hf
    | stmt s =>
      cases s with
      | function g =>
        cases hf
        rfl
      | _ => cases hf
  exact hnode ▸ hn

/-! ## What may go wrong with names -/

/-- The arguments of all calls of `name`. -/
def argumentsFor (program : Program) (name : String) : List Expr :=
  (nodesOf program.body).flatMap fun
    | .expr (.call (.identifier id) arguments _) => if id.name = name then arguments else []
    | _ => []

/-- The initial values of all variables called `name`. -/
def initialsFor (program : Program) (name : String) : List Expr :=
  (nodesOf program.body).flatMap fun n =>
    (n.declarators.filter fun declarator => declarator.id.name = name).filterMap Declarator.init

theorem mem_argumentsFor {id : Identifier} {arguments : List Expr} {span : Span} {argument : Expr}
    (h : .expr (.call (.identifier id) arguments span) ∈ nodesOf program.body)
    (ha : argument ∈ arguments) : argument ∈ program.argumentsFor id.name :=
  List.mem_flatMap.mpr ⟨_, h, by simpa using ha⟩

theorem mem_initialsFor {declarator : Declarator} {init : Expr} (h : n ∈ nodesOf program.body)
    (hd : declarator ∈ n.declarators) (hi : declarator.init = some init) :
    init ∈ program.initialsFor declarator.id.name :=
  List.mem_flatMap.mpr
    ⟨n, h, List.mem_filterMap.mpr ⟨declarator, List.mem_filter.mpr ⟨hd, by simp⟩, hi⟩⟩

/-- An argument of a call of `name` reaches `name`. -/
def Nests (program : Program) (name : String) : Prop :=
  ∃ argument ∈ program.argumentsFor name, program.Reaches (.expr argument) name

/-- The initial value of a variable reaches the name of the variable, which a function has, too. -/
def SelfStarts (program : Program) (name : String) : Prop :=
  (∃ init ∈ program.initialsFor name, program.Reaches (.expr init) name) ∧
    ∃ f, program.Declares f ∧ f.name = name

/-- A function of the program has two parameters of one name. -/
def Collides (program : Program) : Prop :=
  ∃ f ∈ functionsOf program.body, ¬(f.2.params.map Identifier.name).Nodup

end Program

end HeaderCheck.Script
