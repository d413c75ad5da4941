import HeaderCheck.Proofs.Header.Resuming
import Mathlib.Logic.Relation

/-!
# HeaderCheck.Proofs.Header.Inline

Declarations without scopes: each name of a declaration stands for its body.

* `inlineWithin`: the type of an expression with the bodies of declarations in the places of their
  names. In a body nothing is in scope but the parameters of its own declaration, and nothing is
  remembered from one place to the next.
* `Apart`: variables that are no names in the declarations that names reach. What is known by then
  is not lowered any more, and counts for nothing.
* `AllApart`: so it is for the variables in all declarations that names reach.
* `scoping_lowerWithin`: where that is so, an expression comes to the type of its inlined form.
-/

namespace HeaderCheck.Header

open HeaderCheck.Project (Error)
open HeaderCheck.Report (Diagnostic)
open HeaderCheck.Signature
open HeaderCheck.Types (Table TypeId)
open Relation (ReflTransGen TransGen)

/-! ## Inlined declarations -/

/-- Run `m` with only these type variables in scope. -/
def withOnly {α : Type} (typeVars : Dict TypeId) (m : LowerM α) : LowerM α :=
  ExceptT.mk fun s =>
    let (result, after) := m.run { s with typeVars := [typeVars] }
    (result, { after with typeVars := s.typeVars })

/-- The type of a declaration, from its body alone. -/
def inlineDeclaration (inline : TypeExpr → LowerM TypeId) (name : String) (args : List TypeId) :
    LowerM TypeId := do
  match (← get).declarations.get? name with
  | none => return .any
  | some declared => do
    let typeVars ← bindParams declared.params args
    withOnly typeVars (inline declared.body)

/-- The type of an expression with the bodies of declarations in the places of their names. -/
def inlineWithin : (fuel : Nat) → TypeExpr → LowerM TypeId
  | 0, _ => throw .outOfFuel
  | fuel + 1, type => levelWith (inlineDeclaration (inlineWithin fuel)) (inlineWithin fuel) type

/-! ## Names that are reached -/

/-- The names that a declaration leaves to its surroundings. -/
def Declared.names (declared : Declared) : List String :=
  declared.body.names.filter fun name => !declared.params.contains name

variable {declarations : Dict Declared}

/-- The declaration of `name`, which is not `known`, names `other`. -/
def Refers (declarations : Dict Declared) (known : String → Prop) (name other : String) : Prop :=
  ¬known name ∧ ∃ declared, declarations.get? name = some declared ∧ other ∈ declared.names

/-- The name reaches a declaration that is not known. -/
def Reaches (declarations : Dict Declared) (known : String → Prop) (name other : String)
    (declared : Declared) : Prop :=
  ReflTransGen (Refers declarations known) name other ∧ ¬known other ∧
    declarations.get? other = some declared

/-- None of the `bound` variables is a name in a declaration that the names reach. -/
def Apart (declarations : Dict Declared) (known : String → Prop) (bound names : List String) : Prop :=
  ∀ name ∈ names, ∀ other declared, Reaches declarations known name other declared →
    ∀ free ∈ declared.names, free ∉ bound

/-- The type variables of all functions in an expression are apart from what the functions name. -/
def ScopesApart (declarations : Dict Declared) (known : String → Prop) (type : TypeExpr) : Prop :=
  ∀ inner, ReflTransGen (fun whole part => part ∈ whole.parts) type inner →
    Apart declarations known inner.variables inner.names

/-- In all declarations that the names reach, parameters and type variables are apart from what is
named there. -/
def AllApart (declarations : Dict Declared) (known : String → Prop) (names : List String) : Prop :=
  ∀ name ∈ names, ∀ other declared, Reaches declarations known name other declared →
    Apart declarations known declared.params declared.names ∧
      ScopesApart declarations known declared.body

/-- No declaration reaches itself. -/
def Acyclic (declarations : Dict Declared) : Prop :=
  ∀ name, ¬TransGen (Refers declarations fun _ => False) name name

section Known

variable {known known' : String → Prop} {name other : String} {declared : Declared}

theorem Refers.mono (h : Refers declarations known' name other)
    (hknown : ∀ name, known name → known' name) : Refers declarations known name other :=
  ⟨fun hname => h.1 (hknown name hname), h.2⟩

theorem Reaches.mono (h : Reaches declarations known' name other declared)
    (hknown : ∀ name, known name → known' name) : Reaches declarations known name other declared :=
  ⟨ReflTransGen.mono (fun _ _ (hrefers : Refers declarations known' _ _) => hrefers.mono hknown) _ _ h.1,
    fun hname => h.2.1 (hknown other hname), h.2.2⟩

theorem Reaches.head {free : String} (h : Reaches declarations known free other declared)
    (hrefers : Refers declarations known name free) : Reaches declarations known name other declared :=
  ⟨.head hrefers h.1, h.2⟩

theorem Apart.mono {bound names : List String} (h : Apart declarations known bound names)
    (hknown : ∀ name, known name → known' name) : Apart declarations known' bound names :=
  fun name hname other declared hreaches => h name hname other declared (hreaches.mono hknown)

theorem Apart.mem {bound names : List String} (h : Apart declarations known bound names)
    (hname : name ∈ names) : Apart declarations known bound [name] :=
  fun other hother => h other (List.mem_singleton.mp hother ▸ hname)

theorem ScopesApart.mono {type : TypeExpr} (h : ScopesApart declarations known type)
    (hknown : ∀ name, known name → known' name) : ScopesApart declarations known' type :=
  fun inner hinner => (h inner hinner).mono hknown

theorem ScopesApart.part {type part : TypeExpr} (h : ScopesApart declarations known type)
    (hpart : part ∈ type.parts) : ScopesApart declarations known part :=
  fun inner hinner => h inner (.head hpart hinner)

/-- A name has no type variables. -/
theorem scopesApart_literal {flag : Option Bool} {label : Option String} {optional : Bool} :
    ScopesApart declarations known (.literal name flag label optional) := by
  intro inner hinner
  rcases ReflTransGen.cases_head hinner with rfl | ⟨part, hpart, -⟩
  · exact fun _ _ _ _ _ _ _ => List.not_mem_nil
  · cases hpart

theorem AllApart.mono {names : List String} (h : AllApart declarations known names)
    (hknown : ∀ name, known name → known' name) : AllApart declarations known' names :=
  fun name hname other declared hreaches =>
    have hall := h name hname other declared (hreaches.mono hknown)
    ⟨hall.1.mono hknown, hall.2.mono hknown⟩

/-- What is reached from a declaration has another key. -/
theorem Acyclic.key_ne (h : Acyclic declarations) (hkeys : KeysApart declarations)
    {declared' : Declared} {free : String} (hname : declarations.get? name = some declared)
    (hrefers : Refers declarations known name free)
    (hreaches : Reaches declarations known free other declared') :
    declared'.key other ≠ declared.key name := by
  intro hkey
  have hall : ∀ a b, Refers declarations known a b → Refers declarations (fun _ => False) a b :=
    fun a b hab => hab.mono fun _ => False.elim
  have hsame := hkeys _ _ _ _ hreaches.2.2 hname hkey
  rw [hsame] at hreaches
  exact h name (.head' (hall _ _ hrefers) (ReflTransGen.mono hall _ _ hreaches.1))

end Known

/-! ## The mirror -/

/-- The type of the declaration is known. -/
def Lowering.Knows (l : Lowering) (name : String) : Prop :=
  (l.resolved.get? name).isSome

/-- Where a declaration is lowered in the same way as elsewhere: it is not in progress, no type
variable in scope is a name in it, and what it names is apart from its own variables. -/
structure Lowering.ClearAt (l : Lowering) (name : String) (declared : Declared) : Prop where
  progress : declared.key name ∉ l.inProgress
  unbound : ∀ free ∈ declared.names, l.binding? free = none
  params : Apart l.declarations l.Knows declared.params declared.names
  scopes : ScopesApart l.declarations l.Knows declared.body

/-- All that a name reaches is lowered in the same way as elsewhere. -/
def Lowering.Clear (l : Lowering) (name : String) : Prop :=
  ∀ other declared, Reaches l.declarations l.Knows name other declared → l.ClearAt other declared

/-- What is remembered of declarations are the types that they come to. -/
def Lowering.Remembers (l : Lowering) : Prop :=
  ∀ name type, l.resolved.get? name = some type → ∃ reported,
    (∀ d ∈ reported, d ∈ l.diagnostics) ∧
    l.Comes False [] (fun fuel => inlineDeclaration (inlineWithin fuel) name []) (.ok type) reported

variable {α : Type} {l l' : Lowering} {names inner : List String} {P : α → Table → Prop}
  {m : LowerM α} {m' : Nat → LowerM α}

/-- What work comes to does not depend on what is in scope or in progress when it uses no names from
there. -/
theorem Lowering.Comes.congr {work : Nat → LowerM α} {result : Except Error α}
    {reported : List Diagnostic} (h : l.Comes False [] work result reported)
    (hx : l.table.Extends l'.table) (hp : l'.path = l.path) (hd : l'.declarations = l.declarations)
    (hi : l'.imported = l.imported) : l'.Comes False [] work result reported := by
  obtain ⟨enough, hcomes⟩ := h
  refine ⟨enough, fun fuel hfuel r hr => hcomes fuel hfuel r ?_⟩
  exact ⟨hr.wellFormed, hx.trans hr.table, hr.path.trans hp, fun name => hd ▸ hr.declarations name,
    fun name => hi ▸ hr.imported name, by simp, nofun⟩

theorem Lowering.Remembers.congr (h : l.Remembers) (hx : l.table.Extends l'.table)
    (hp : l'.path = l.path) (hd : l'.declarations = l.declarations) (hi : l'.imported = l.imported)
    (hr : l'.resolved = l.resolved) (hdiagnostics : l.diagnostics <+: l'.diagnostics) :
    l'.Remembers := by
  intro name type hget
  obtain ⟨reported, hreported, hcomes⟩ := h name type (hr ▸ hget)
  exact ⟨reported, fun d hd => hdiagnostics.subset (hreported d hd), hcomes.congr hx hp hd hi⟩

/-- An expression whose variables are apart, in a place where its names are clear. -/
def Lowering.Fit (l : Lowering) (type : TypeExpr) : Prop :=
  ScopesApart l.declarations l.Knows type ∧
    ∀ name ∈ type.names, l.binding? name = none → l.Clear name

theorem Lowering.knows_mono
    (h : ∀ name type, l.resolved.get? name = some type → l'.resolved.get? name = some type)
    (name : String) (hname : l.Knows name) : l'.Knows name := by
  obtain ⟨type, hget⟩ := Option.isSome_iff_exists.mp hname
  rw [Knows, h name type hget]
  rfl

/-- Names stay clear while more gets known. -/
theorem Lowering.Clear.keeps {name : String} (h : l.Clear name) (hk : l.Keeps l')
    (hknown : ∀ name, l.Knows name → l'.Knows name) : l'.Clear name := by
  intro other declared hreaches
  rw [hk.declarations] at hreaches
  obtain ⟨hprogress, hunbound, hparams, hscopes⟩ := h other declared (hreaches.mono hknown)
  refine ⟨hk.inProgress ▸ hprogress, fun free hmem => ?_, ?_, ?_⟩
  · rw [Lowering.binding?, hk.typeVars]
    exact hunbound free hmem
  · exact hk.declarations ▸ hparams.mono hknown
  · exact hk.declarations ▸ hscopes.mono hknown

theorem Lowering.Fit.keeps {type : TypeExpr} (h : l.Fit type) (hk : l.Keeps l')
    (hknown : ∀ name, l.Knows name → l'.Knows name) : l'.Fit type := by
  refine ⟨hk.declarations ▸ h.1.mono hknown, fun name hname hfree =>
    (h.2 name hname ?_).keeps hk hknown⟩
  rwa [Lowering.binding?, hk.typeVars] at hfree

theorem Lowering.Fit.part {type part : TypeExpr} (h : l.Fit type) (hvariables : type.variables = [])
    (hpart : part ∈ type.parts) : l.Fit part := by
  refine ⟨h.1.part hpart, fun name hname => h.2 name ?_⟩
  have hname' := TypeExpr.names_of_part hpart hname
  rw [hvariables] at hname'
  exact hname'.resolve_left List.not_mem_nil

/-- Names stay clear when variables get in scope that are apart from what the names reach. -/
theorem Lowering.Clear.push {name : String} (h : l.Clear name) {bound : List String}
    (hapart : Apart l.declarations l.Knows bound [name]) {typeVars : Dict TypeId}
    (honly : ∀ free, (typeVars.get? free).isSome → free ∈ bound) : (l.push typeVars).Clear name := by
  intro other declared hreaches
  obtain ⟨hprogress, hunbound, hparams, hscopes⟩ := h other declared hreaches
  refine ⟨hprogress, fun free hmem => ?_, hparams, hscopes⟩
  have hget : typeVars.get? free = none := by
    by_contra hsome
    exact hapart name (List.mem_singleton.mpr rfl) other declared hreaches free hmem
      (honly free (Option.isSome_iff_ne_none.mpr hsome))
  rw [Lowering.binding?_push, hget, Option.none_or]
  exact hunbound free hmem

theorem Lowering.Fit.push {type part : TypeExpr} (h : l.Fit type) {typeVars : Dict TypeId}
    (hbound : ∀ name ∈ type.variables, (typeVars.get? name).isSome)
    (honly : ∀ name, (typeVars.get? name).isSome → name ∈ type.variables)
    (hpart : part ∈ type.parts) : (l.push typeVars).Fit part := by
  refine ⟨h.1.part hpart, fun name hname hfree => ?_⟩
  rw [Lowering.binding?_push, Option.or_eq_none_iff] at hfree
  rcases TypeExpr.names_of_part hpart hname with hvariable | hname
  · have hsome := hbound name hvariable
    rw [hfree.1] at hsome
    cases hsome
  · exact (h.2 name hname hfree.2).push ((h.1 type .refl).mem hname) honly

/-- Lowering is mirrored by inlining. -/
def Mirror.scoping : Mirror where
  resumes := False
  known l := Acyclic l.declarations ∧ KeysApart l.declarations ∧ l.PlainOnly ∧ l.Remembers
  ready := Lowering.Fit
  known_congr h hx hp hd hi hr hdiagnostics := by
    refine ⟨hd ▸ h.1, hd ▸ h.2.1, ?_, h.2.2.2.congr hx hp hd hi hr hdiagnostics⟩
    rw [Lowering.PlainOnly, hd, hr]
    exact h.2.2.1
  ready_keeps h hk hresolved := h.keeps hk (Lowering.knows_mono hresolved)
  ready_part h hvariables hpart := h.part hvariables hpart
  ready_push h hbound honly hpart := h.push hbound honly hpart

/-! ## Rules -/

/-- Work in a scope is mirrored by work with only the variables that its names stand for there. -/
theorem Mirrors.withOnly {typeVars : Dict TypeId} (h : Mirrors .scoping inner l P m m')
    (hsame : ∀ name ∈ inner, typeVars.get? name = l.binding? name) :
    Mirrors .scoping [] l P m fun fuel => withOnly typeVars (m' fuel) := by
  refine ⟨h.onward, h.result, fun hcounts => ?_⟩
  obtain ⟨reported, hreported, hall, enough, hcomes⟩ := h.again hcounts
  refine ⟨reported, hreported, hall, enough, fun fuel hfuel r hr => ?_⟩
  have hinside : (m.run l).2.Follows False inner { r with typeVars := [typeVars] } := by
    refine ⟨hr.wellFormed, hr.table, hr.path, hr.declarations, hr.imported, fun name hname => ?_, nofun⟩
    rw [h.onward.binding?_eq, ← hsame name hname]
    change ([typeVars].findSome? fun scope => scope.get? name) = typeVars.get? name
    rw [List.findSome?_cons]
    cases typeVars.get? name <;> rfl
  have hrun := hcomes fuel hfuel _ hinside
  exact congrArg (fun run : Except Error α × Lowering => (run.1, { run.2 with typeVars := r.typeVars })) hrun

/-- Lowerings that differ only in what is in scope and in progress. -/
structure Lowering.Alike (l l' : Lowering) : Prop where
  table : l'.table = l.table
  path : l'.path = l.path
  declarations : l'.declarations = l.declarations
  imported : l'.imported = l.imported
  diagnostics : l'.diagnostics = l.diagnostics

/-- What is made inside a scope is made outside of it when it uses nothing of it. -/
theorem Mirrors.outside {outer : LowerM α} (h : Mirrors .scoping [] l P m m') (hl : l.Alike l')
    (honward : Mirror.scoping.Onward l' (outer.run l').2) (hresult : (outer.run l').1 = (m.run l).1)
    (hafter : (m.run l).2.Alike (outer.run l').2) : Mirrors .scoping [] l' P outer m' := by
  refine ⟨honward, fun a ha => ?_, fun hcounts => ?_⟩
  · rw [hafter.table]
    exact h.result a (hresult ▸ ha)
  · rw [hresult] at hcounts ⊢
    obtain ⟨reported, hreported, hall, hcomes⟩ := h.again hcounts
    rw [hafter.diagnostics, hl.diagnostics]
    exact ⟨reported, hreported, hall, hcomes.congr (hafter.table ▸ .refl _) hafter.path
      hafter.declarations hafter.imported⟩

variable {typeVars : Dict TypeId} {key : String}

theorem Mirrors.outsideVariables
    (hissued : ∀ name type, typeVars.get? name = some type → l.table.Issued type)
    (h : Mirrors .scoping [] (l.push typeVars) P m m') :
    Mirrors .scoping [] l P (Header.withVariables typeVars m) m' :=
  h.outside ⟨rfl, rfl, rfl, rfl, rfl⟩ (h.onward.pop hissued) rfl ⟨rfl, rfl, rfl, rfl, rfl⟩

theorem Mirrors.outsideProgress (h : Mirrors .scoping [] (l.start key) P m m') :
    Mirrors .scoping [] l P (Header.whileInProgress key m) m' :=
  h.outside ⟨rfl, rfl, rfl, rfl, rfl⟩ h.onward.finish rfl ⟨rfl, rfl, rfl, rfl, rfl⟩

/-! ## Declarations -/

variable {lower : TypeExpr → LowerM TypeId} {name : String} {declared : Declared}

theorem run_inlineDeclaration {r : Lowering} (hget : r.declarations.get? name = some declared)
    (inline : TypeExpr → LowerM TypeId) (args : List TypeId) :
    (inlineDeclaration inline name args).run r = (do
      let typeVars ← bindParams declared.params args
      Header.withOnly typeVars (inline declared.body)).run r := by
  rw [inlineDeclaration, run_get_bind, hget]

/-- A name of a body that is no parameter is one of the declaration. -/
theorem Declared.mem_names {free : String} (h : free ∈ declared.body.names)
    (hparams : ∀ param, (typeVars.get? param).isSome ↔ param ∈ declared.params)
    (hfree : typeVars.get? free = none) : free ∈ declared.names := by
  have hparam : free ∉ declared.params := by
    rw [← hparams, hfree]
    simp
  rw [Declared.names, List.mem_filter]
  exact ⟨h, by simpa using hparam⟩

/-- While a declaration is in progress, what its names reach is clear. -/
theorem Lowering.Clear.start (h : l.Clear name) (hacyclic : Acyclic l.declarations)
    (hkeys : KeysApart l.declarations) (hnew : ¬l.Knows name)
    (hget : l.declarations.get? name = some declared) {free : String} (hfree : free ∈ declared.names) :
    (l.start (declared.key name)).Clear free := by
  intro other declared' hreaches
  have hrefers : Refers l.declarations l.Knows name free := ⟨hnew, declared, hget, hfree⟩
  obtain ⟨hprogress, hunbound, hparams, hscopes⟩ := h other declared' (hreaches.head hrefers)
  refine ⟨fun hmem => ?_, hunbound, hparams, hscopes⟩
  rcases List.mem_cons.mp hmem with hkey | hmem
  · exact hacyclic.key_ne hkeys hget hrefers hreaches hkey
  · exact hprogress hmem

/-- The body of a declaration that is clear fits where its parameters are in scope. -/
theorem Lowering.Clear.body (h : l.Clear name) (hacyclic : Acyclic l.declarations)
    (hkeys : KeysApart l.declarations) (hnew : ¬l.Knows name)
    (hget : l.declarations.get? name = some declared)
    (hparams : ∀ param, (typeVars.get? param).isSome ↔ param ∈ declared.params) :
    ((l.start (declared.key name)).push typeVars).Fit declared.body := by
  have hat := h name declared ⟨.refl, hnew, hget⟩
  refine ⟨hat.scopes, fun free hmem hfree => ?_⟩
  rw [Lowering.binding?_push, Option.or_eq_none_iff] at hfree
  have hname := Declared.mem_names hmem hparams hfree.1
  exact (h.start hacyclic hkeys hnew hget hname).push (hat.params.mem hname)
    fun param hsome => (hparams param).mp hsome

/-- With its parameters alone in scope, the body of a declaration that is clear has the same names. -/
theorem Lowering.Clear.binding?_body (h : l.Clear name) (hnew : ¬l.Knows name)
    (hget : l.declarations.get? name = some declared)
    (hparams : ∀ param, (typeVars.get? param).isSome ↔ param ∈ declared.params) {free : String}
    (hmem : free ∈ declared.body.names) :
    typeVars.get? free = (l.push typeVars).binding? free := by
  rw [Lowering.binding?_push]
  cases hfree : typeVars.get? free with
  | some type => rfl
  | none =>
    have hat := h name declared ⟨.refl, hnew, hget⟩
    exact (hat.unbound free (Declared.mem_names hmem hparams hfree)).symm

/-- The types of declarations are remembered when one more is learned that comes to its type. -/
theorem Lowering.Remembers.learn (h : l.Remembers) {type : TypeId} {reported : List Diagnostic}
    (hreported : ∀ d ∈ reported, d ∈ l.diagnostics)
    (hcomes : l.Comes False [] (fun fuel => inlineDeclaration (inlineWithin fuel) name []) (.ok type)
      reported) : (l.learn name type).Remembers := by
  intro other known hother
  rw [Lowering.learn, Dict.get?_insert] at hother
  split at hother
  · next hsame =>
    subst hsame
    cases hother
    exact ⟨reported, hreported, hcomes.congr (.refl _) rfl rfl rfl⟩
  · obtain ⟨reported', hreported', hcomes'⟩ := h other known hother
    exact ⟨reported', hreported', hcomes'.congr (.refl _) rfl rfl rfl⟩

/-- Without parameters, a declaration is its body with nothing in scope. -/
theorem run_inlinePlain {r : Lowering} (hget : r.declarations.get? name = some declared)
    (hparams : declared.params = []) (inline : TypeExpr → LowerM TypeId) (args : List TypeId) :
    (inlineDeclaration inline name args).run r = (Header.withOnly {} (inline declared.body)).run r := by
  rw [run_inlineDeclaration hget, hparams]
  rfl

theorem get?_params {param : String} (hparams : declared.params = []) :
    (({} : Dict TypeId).get? param).isSome ↔ param ∈ declared.params := by
  rw [hparams]
  exact ⟨nofun, nofun⟩

theorem scoping_plainBody (h : Mirror.scoping.Exprs lower fun fuel => inlineWithin fuel)
    (hl : Mirror.scoping.Holds l) (hclear : l.Clear name) (hnew : ¬l.Knows name)
    (hget : l.declarations.get? name = some declared) (hparams : declared.params = []) :
    Mirrors .scoping [] (l.start name) (fun id t => t.Issued id) (lower declared.body) fun fuel =>
      Header.withOnly {} (inlineWithin fuel declared.body) := by
  have hkey : declared.key name = name := by simp [Declared.key, hparams]
  have hnames : ∀ free ∈ declared.body.names, free ∈ declared.names := fun free hmem =>
    Declared.mem_names hmem (fun _ => get?_params hparams) rfl
  have hat := hclear name declared ⟨.refl, hnew, hget⟩
  refine (h (hl.start name) ⟨hat.scopes, fun free hmem _ => ?_⟩).withOnly fun free hmem => ?_
  · have hclear' := hclear.start hl.known.1 hl.known.2.1 hnew hget (hnames free hmem)
    rwa [hkey] at hclear'
  · exact (hat.unbound free (hnames free hmem)).symm

theorem scoping_lowerPlain (h : Mirror.scoping.Exprs lower fun fuel => inlineWithin fuel)
    (hl : Mirror.scoping.Holds l) (hclear : l.Clear name)
    (hget : l.declarations.get? name = some declared) (hparams : declared.params = [])
    (args : List TypeId) :
    Mirrors .scoping [] l (fun id t => t.Issued id) (lowerPlain lower name declared.body) fun fuel =>
      inlineDeclaration (inlineWithin fuel) name args := by
  have hinline : ∀ {l' : Lowering}, l'.declarations = l.declarations → ∀ fuel r args,
      l'.Follows False [] r → (inlineDeclaration (inlineWithin fuel) name args).run r =
        (Header.withOnly {} (inlineWithin fuel declared.body)).run r := by
    intro l' hd fuel r args hr
    refine run_inlinePlain ?_ hparams _ args
    rw [hr.declarations, hd, hget]
  cases hknown : l.resolved.get? name with
  | some type =>
    have hrun : (lowerPlain lower name declared.body).run l = (.ok type, l) :=
      run_lowerPlain_known hknown
    obtain ⟨reported, hreported, enough, hcomes⟩ := hl.known.2.2.2 name type hknown
    refine ⟨?_, ?_, fun _ => ⟨reported, ?_, ?_, ?_⟩⟩ <;> rw [hrun]
    · exact Std.Refl.refl l
    · rintro _ ⟨⟩
      exact hl.sound.resolved name type hknown
    · exact hreported
    · exact fun _ d hd => .inl hd
    · refine ⟨enough, fun fuel hfuel r hr => ?_⟩
      rw [hinline rfl fuel r args hr, ← hinline rfl fuel r [] hr]
      exact hcomes fuel hfuel r hr
  | none =>
    have hkey : declared.key name = name := by simp [Declared.key, hparams]
    have hunknown : ¬l.Knows name := by simp [Lowering.Knows, hknown]
    have hprogress : name ∉ l.inProgress := hkey ▸ (hclear name declared ⟨.refl, hunknown, hget⟩).progress
    have hbody := scoping_plainBody h hl hclear hunknown hget hparams
    have hinside := hbody.outsideProgress
    rcases hrun : (lower declared.body).run (l.start name) with ⟨e | type, l₁⟩
    · refine hinside.congr ?_ fun fuel r hr => hinline rfl fuel r args hr
      rw [run_lowerPlain_error hknown hprogress hrun, run_whileInProgress hrun]
    · have hnew : l₁.resolved.get? name = none := by
        have hwaiting := hbody.onward.waiting name List.mem_cons_self
        rw [hrun] at hwaiting
        exact hwaiting.trans hknown
      obtain ⟨honward, hissued, hagain⟩ := hinside
      rw [run_whileInProgress hrun] at honward hissued hagain
      obtain ⟨reported, hreported, hall, enough, hcomes⟩ := hagain ⟨by rintro ⟨⟩, False.elim⟩
      have hagain' : ∀ args, (l₁.finish name).Comes False []
          (fun fuel => inlineDeclaration (inlineWithin fuel) name args) (.ok type) reported := by
        refine fun args => ⟨enough, fun fuel hfuel r hr => ?_⟩
        rw [hinline honward.keeps.declarations fuel r args hr]
        exact hcomes fuel hfuel r hr
      have hget' : (l₁.finish name).declarations.get? name = some declared := by
        rw [honward.keeps.declarations, hget]
      have hlearn := honward.learn hnew hprogress (hissued type rfl) fun hknown =>
        ⟨hknown.1, hknown.2.1, hknown.2.2.1.learn hget' (by simp [hparams]) type,
          hknown.2.2.2.learn hreported (hagain' [])⟩
      refine ⟨?_, ?_, fun _ => ⟨reported, ?_, ?_, ?_⟩⟩ <;> rw [run_lowerPlain_ok hknown hprogress hrun]
      · exact hlearn
      · exact hissued
      · exact hreported
      · exact hall
      · exact (hagain' args).congr (.refl _) rfl rfl rfl

theorem scoping_lowerApplied (h : Mirror.scoping.Exprs lower fun fuel => inlineWithin fuel)
    (hl : Mirror.scoping.Holds l) (hclear : l.Clear name)
    (hget : l.declarations.get? name = some declared) (hparams : ¬declared.params.isEmpty)
    {args : List TypeId} (hargs : ∀ arg ∈ args, l.table.Issued arg) :
    Mirrors .scoping [] l (fun id t => t.Issued id) (lowerApplied lower name declared args) fun fuel =>
      inlineDeclaration (inlineWithin fuel) name args := by
  have hkey : declared.key name = appliedKey name := by
    rw [Declared.key, if_neg hparams]
  have hnew : ¬l.Knows name := by
    intro hknown
    obtain ⟨type, htype⟩ := Option.isSome_iff_exists.mp hknown
    obtain ⟨plain, hplain, hempty⟩ := hl.known.2.2.1 name type htype
    rw [hget] at hplain
    cases hplain
    exact hparams hempty
  have hprogress : appliedKey name ∉ l.inProgress :=
    hkey ▸ (hclear name declared ⟨.refl, hnew, hget⟩).progress
  have hstart := hl.start (appliedKey name)
  have hbody : Mirrors .scoping [] (l.start (appliedKey name)) (fun id t => t.Issued id)
      (do
        let typeVars ← bindParams declared.params args
        Header.withVariables typeVars (lower declared.body))
      (fun fuel => do
        let typeVars ← bindParams declared.params args
        Header.withOnly typeVars (inlineWithin fuel declared.body)) := by
    refine .bind (mirrors_bindParams hstart.sound declared.params hargs)
      fun typeVars l₁ h₁ hscopes => .outsideVariables hscopes.1 ?_
    have hk : ((l.start (appliedKey name)).push typeVars).Keeps (l₁.push typeVars) := by
      obtain ⟨htable, hpath, hd, hp, hi, hvars, hdiagnostics⟩ := h₁.keeps
      exact ⟨htable, hpath, hd, hp, hi, congrArg (typeVars :: ·) hvars, hdiagnostics⟩
    have hfit := hclear.body hl.known.1 hl.known.2.1 hnew hget hscopes.2
    rw [hkey] at hfit
    refine (h ((h₁.holds hstart).push hscopes.1)
      (hfit.keeps hk (Lowering.knows_mono h₁.resolved))).withOnly fun free hmem => ?_
    rw [hclear.binding?_body hnew hget hscopes.2 hmem, Lowering.binding?, Lowering.binding?, hk.typeVars]
    rfl
  refine hbody.outsideProgress.congr ?_ fun fuel r hr => ?_
  · rw [lowerApplied, run_get_bind]
    simp only [List.contains_iff_mem, hprogress, if_false]
  · rw [run_inlineDeclaration]
    rw [hr.declarations, hget]

theorem scoping_lowerDeclaration (h : Mirror.scoping.Exprs lower fun fuel => inlineWithin fuel) :
    Mirror.scoping.Declarations (lowerDeclaration lower) fun fuel =>
      inlineDeclaration (inlineWithin fuel) := by
  intro l name flag label optional args hl hfit hfree hdeclared hargs
  obtain ⟨declared, hget⟩ := Option.isSome_iff_exists.mp hdeclared
  have hclear : l.Clear name := hfit.2 name (List.mem_singleton.mpr rfl) hfree
  have hrun : (lowerDeclaration lower name args).run l = _ := run_lowerDeclaration hget args
  split at hrun
  · next hparams =>
    exact (scoping_lowerPlain h hl hclear hget (List.isEmpty_iff.mp hparams) args).congr hrun
      fun _ _ _ => rfl
  · next hparams =>
    exact (scoping_lowerApplied h hl hclear hget hparams hargs).congr hrun fun _ _ _ => rfl

/-- An expression that fits comes to the type of its inlined form. -/
theorem scoping_lowerWithin (fuel : Nat) :
    Mirror.scoping.Exprs (lowerWithin fuel) fun more => inlineWithin more := by
  induction fuel with
  | zero => exact fun _ _ => .outOfFuel
  | succ fuel ih =>
    intro l type hl hr
    refine .shift ?_
    simp only [lowerWithin, lowerLevel_eq]
    exact ih.level (scoping_lowerDeclaration ih) hl hr

end HeaderCheck.Header
