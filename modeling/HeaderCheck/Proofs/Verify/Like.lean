import HeaderCheck.Verify.Assign
import HeaderCheck.Verify.Branch
import Mathlib.Data.List.Forall2

/-!
# HeaderCheck.Proofs.Verify.Like

Scripts that differ in places at most.

* `Pairing`: which keys of functions belong together, one to one.
* `Expr.Like`, `Stmt.Like`: the same nodes at other places. The functions directly in a body have
  keys that belong together; each function has a pairing of its own for what is in its body.
* `Expr.Like.refl`: every script is like itself, where each key belongs to itself.
* The lemmas after it: what the verifier asks about nodes has the same answers.
-/

namespace HeaderCheck

namespace Script

open HeaderCheck.Verify (expressionKey)

/-! ## Keys -/

/-- Keys that belong together, one to one. In an exact comparison they are equal. -/
structure Pairing (exact : Prop) where
  Pairs : String → String → Prop
  unique : ∀ {key key' other other'}, Pairs key key' → Pairs other other' →
    (key = other ↔ key' = other')
  equal : exact → ∀ {key key'}, Pairs key key' → key' = key

/-- Each key belongs to itself. -/
def Pairing.same (exact : Prop) : Pairing exact where
  Pairs := fun key key' => key' = key
  unique := by
    rintro _ _ _ _ rfl rfl
    exact Iff.rfl
  equal := fun _ _ _ h => h

/-! ## Nodes -/

/-- Places that are equal in an exact comparison. -/
abbrev SamePlace (exact : Prop) (span span' : Span) : Prop :=
  exact → span' = span

mutual

/-- The same expression at another place. -/
inductive Expr.Like {exact : Prop} : Pairing exact → Expr → Expr → Prop
  | identifier {π id id'} (hname : id'.name = id.name) (hplace : SamePlace exact id.span id'.span) :
    Expr.Like π (.identifier id) (.identifier id')
  | literal {π lit lit'} (hvalue : lit'.value = lit.value) (hregex : lit'.regex = lit.regex)
    (hplace : SamePlace exact lit.span lit'.span) : Expr.Like π (.literal lit) (.literal lit')
  | this {π span span'} (hplace : SamePlace exact span span') :
    Expr.Like π (.this span) (.this span')
  | array {π elements elements' span span'} (helements : ExprsLike π elements elements')
    (hplace : SamePlace exact span span') : Expr.Like π (.array elements span) (.array elements' span')
  | object {π properties properties' span span'} (hproperties : PropertiesLike π properties properties')
    (hplace : SamePlace exact span span') :
    Expr.Like π (.object properties span) (.object properties' span')
  | function {π} {within : Pairing exact} {f f' : Function} (hfunction : Function.Like within f f')
    (hkey : π.Pairs (expressionKey f) (expressionKey f')) : Expr.Like π (.function f) (.function f')
  | assignment {π operator left left' right right' span span'} (hleft : Expr.Like π left left')
    (hright : Expr.Like π right right') (hplace : SamePlace exact span span') :
    Expr.Like π (.assignment operator left right span) (.assignment operator left' right' span')
  | member {π object object' property property' computed span span'}
    (hobject : Expr.Like π object object') (hproperty : Expr.Like π property property')
    (hplace : SamePlace exact span span') :
    Expr.Like π (.member object property computed span) (.member object' property' computed span')
  | call {π callee callee' arguments arguments' span span'} (hcallee : Expr.Like π callee callee')
    (harguments : ExprsLike π arguments arguments') (hplace : SamePlace exact span span') :
    Expr.Like π (.call callee arguments span) (.call callee' arguments' span')
  | new {π callee callee' arguments arguments' span span'} (hcallee : Expr.Like π callee callee')
    (harguments : ExprsLike π arguments arguments') (hplace : SamePlace exact span span') :
    Expr.Like π (.new callee arguments span) (.new callee' arguments' span')
  | binary {π operator left left' right right' span span'} (hleft : Expr.Like π left left')
    (hright : Expr.Like π right right') (hplace : SamePlace exact span span') :
    Expr.Like π (.binary operator left right span) (.binary operator left' right' span')
  | logical {π operator left left' right right' span span'} (hleft : Expr.Like π left left')
    (hright : Expr.Like π right right') (hplace : SamePlace exact span span') :
    Expr.Like π (.logical operator left right span) (.logical operator left' right' span')
  | unary {π operator argument argument' before span span'} (hargument : Expr.Like π argument argument')
    (hplace : SamePlace exact span span') :
    Expr.Like π (.unary operator argument before span) (.unary operator argument' before span')
  | update {π operator argument argument' before span span'} (hargument : Expr.Like π argument argument')
    (hplace : SamePlace exact span span') :
    Expr.Like π (.update operator argument before span) (.update operator argument' before span')
  | conditional {π test test' consequent consequent' alternate alternate' span span'}
    (htest : Expr.Like π test test') (hconsequent : Expr.Like π consequent consequent')
    (halternate : Expr.Like π alternate alternate') (hplace : SamePlace exact span span') :
    Expr.Like π (.conditional test consequent alternate span)
      (.conditional test' consequent' alternate' span')

inductive ExprsLike {exact : Prop} : Pairing exact → List Expr → List Expr → Prop
  | nil {π} : ExprsLike π [] []
  | cons {π e e' rest rest'} (hfirst : Expr.Like π e e') (hothers : ExprsLike π rest rest') :
    ExprsLike π (e :: rest) (e' :: rest')

inductive ExprLike? {exact : Prop} : Pairing exact → Option Expr → Option Expr → Prop
  | none {π} : ExprLike? π none none
  | some {π e e'} (hlike : Expr.Like π e e') : ExprLike? π (some e) (some e')

inductive PropertiesLike {exact : Prop} : Pairing exact → List Property → List Property → Prop
  | nil {π} : PropertiesLike π [] []
  | cons {π property property' rest rest'} (hkey : property'.keyName? = property.keyName?)
    (hkind : property'.kind = property.kind) (hvalue : Expr.Like π property.value property'.value)
    (hothers : PropertiesLike π rest rest') :
    PropertiesLike π (property :: rest) (property' :: rest')

/-- The same function at another place, with the pairing of what is in its body. -/
inductive Function.Like {exact : Prop} : Pairing exact → Function → Function → Prop
  | mk {π} {f f' : Function} (hname : f'.name = f.name)
    (hparams : f'.params.map Identifier.name = f.params.map Identifier.name)
    (hplace : SamePlace exact f.span f'.span) (hbody : StmtsLike π f.body f'.body) :
    Function.Like π f f'

inductive DeclaratorsLike {exact : Prop} : Pairing exact → List Declarator → List Declarator → Prop
  | nil {π} : DeclaratorsLike π [] []
  | cons {π declarator declarator' rest rest'} (hname : declarator'.id.name = declarator.id.name)
    (hinit : ExprLike? π declarator.init declarator'.init) (hothers : DeclaratorsLike π rest rest') :
    DeclaratorsLike π (declarator :: rest) (declarator' :: rest')

inductive ForInitLike? {exact : Prop} : Pairing exact → Option ForInit → Option ForInit → Prop
  | none {π} : ForInitLike? π none none
  | declaration {π declaration declaration'}
    (hdeclarators : DeclaratorsLike π declaration.declarators declaration'.declarators) :
    ForInitLike? π (some (.declaration declaration)) (some (.declaration declaration'))
  | expression {π e e'} (hlike : Expr.Like π e e') :
    ForInitLike? π (some (.expression e)) (some (.expression e'))

/-- The same statement at another place. -/
inductive Stmt.Like {exact : Prop} : Pairing exact → Stmt → Stmt → Prop
  | declaration {π declaration declaration'}
    (hdeclarators : DeclaratorsLike π declaration.declarators declaration'.declarators) :
    Stmt.Like π (.declaration declaration) (.declaration declaration')
  | function {π} {within : Pairing exact} {f f' : Function} (hfunction : Function.Like within f f') (hkey : π.Pairs f.name f'.name) :
    Stmt.Like π (.function f) (.function f')
  | expression {π e e' span span'} (hlike : Expr.Like π e e') :
    Stmt.Like π (.expression e span) (.expression e' span')
  | block {π body body' span span'} (hbody : StmtsLike π body body') :
    Stmt.Like π (.block body span) (.block body' span')
  | branch {π test test' consequent consequent' alternate alternate' span span'}
    (htest : Expr.Like π test test') (hconsequent : Stmt.Like π consequent consequent')
    (halternate : StmtLike? π alternate alternate') :
    Stmt.Like π (.branch test consequent alternate span) (.branch test' consequent' alternate' span')
  | whileLoop {π test test' body body' span span'} (htest : Expr.Like π test test')
    (hbody : Stmt.Like π body body') :
    Stmt.Like π (.whileLoop test body span) (.whileLoop test' body' span')
  | forLoop {π init init' test test' update update' body body' span span'}
    (hinit : ForInitLike? π init init') (htest : ExprLike? π test test')
    (hupdate : ExprLike? π update update') (hbody : Stmt.Like π body body') :
    Stmt.Like π (.forLoop init test update body span) (.forLoop init' test' update' body' span')
  | returns {π argument argument' span span'} (hargument : ExprLike? π argument argument')
    (hplace : SamePlace exact span span') :
    Stmt.Like π (.returns argument span) (.returns argument' span')
  | throws {π e e' span span'} (hlike : Expr.Like π e e') :
    Stmt.Like π (.throws e span) (.throws e' span')
  | empty {π span span'} : Stmt.Like π (.empty span) (.empty span')

inductive StmtsLike {exact : Prop} : Pairing exact → List Stmt → List Stmt → Prop
  | nil {π} : StmtsLike π [] []
  | cons {π stmt stmt' rest rest'} (hfirst : Stmt.Like π stmt stmt')
    (hothers : StmtsLike π rest rest') : StmtsLike π (stmt :: rest) (stmt' :: rest')

inductive StmtLike? {exact : Prop} : Pairing exact → Option Stmt → Option Stmt → Prop
  | none {π} : StmtLike? π none none
  | some {π stmt stmt'} (hlike : Stmt.Like π stmt stmt') : StmtLike? π (some stmt) (some stmt')

end

/-! ## Every script is like itself -/

section Reflexivity

variable (exact : Prop)

mutual

theorem Expr.Like.refl : (e : Expr) → Expr.Like (Pairing.same exact) e e
  | .identifier _ => .identifier rfl fun _ => rfl
  | .literal _ => .literal rfl rfl fun _ => rfl
  | .this _ => .this fun _ => rfl
  | .array elements _ => .array (exprsLike_refl elements) fun _ => rfl
  | .object properties _ => .object (propertiesLike_refl properties) fun _ => rfl
  | .function f => .function (Function.Like.refl f) rfl
  | .assignment _ left right _ => .assignment (Expr.Like.refl left) (Expr.Like.refl right) fun _ => rfl
  | .member object property _ _ => .member (Expr.Like.refl object) (Expr.Like.refl property) fun _ => rfl
  | .call callee arguments _ => .call (Expr.Like.refl callee) (exprsLike_refl arguments) fun _ => rfl
  | .new callee arguments _ => .new (Expr.Like.refl callee) (exprsLike_refl arguments) fun _ => rfl
  | .binary _ left right _ => .binary (Expr.Like.refl left) (Expr.Like.refl right) fun _ => rfl
  | .logical _ left right _ => .logical (Expr.Like.refl left) (Expr.Like.refl right) fun _ => rfl
  | .unary _ argument _ _ => .unary (Expr.Like.refl argument) fun _ => rfl
  | .update _ argument _ _ => .update (Expr.Like.refl argument) fun _ => rfl
  | .conditional test consequent alternate _ =>
    .conditional (Expr.Like.refl test) (Expr.Like.refl consequent) (Expr.Like.refl alternate) fun _ => rfl

theorem exprsLike_refl : (es : List Expr) → ExprsLike (Pairing.same exact) es es
  | [] => .nil
  | e :: rest => .cons (Expr.Like.refl e) (exprsLike_refl rest)

theorem exprLike?_refl : (e : Option Expr) → ExprLike? (Pairing.same exact) e e
  | none => .none
  | some e => .some (Expr.Like.refl e)

theorem propertiesLike_refl :
    (properties : List Property) → PropertiesLike (Pairing.same exact) properties properties
  | [] => .nil
  | ⟨_, value, _, _⟩ :: rest => .cons rfl rfl (Expr.Like.refl value) (propertiesLike_refl rest)

theorem Function.Like.refl : (f : Function) → Function.Like (Pairing.same exact) f f
  | ⟨_, _, body, _, _⟩ => .mk rfl rfl (fun _ => rfl) (stmtsLike_refl body)

theorem declaratorsLike_refl :
    (declarators : List Declarator) → DeclaratorsLike (Pairing.same exact) declarators declarators
  | [] => .nil
  | ⟨_, init, _⟩ :: rest => .cons rfl (exprLike?_refl init) (declaratorsLike_refl rest)

theorem forInitLike?_refl : (init : Option ForInit) → ForInitLike? (Pairing.same exact) init init
  | none => .none
  | some (.declaration ⟨declarators, _, _⟩) => .declaration (declaratorsLike_refl declarators)
  | some (.expression e) => .expression (Expr.Like.refl e)

theorem Stmt.Like.refl : (stmt : Stmt) → Stmt.Like (Pairing.same exact) stmt stmt
  | .declaration ⟨declarators, _, _⟩ => .declaration (declaratorsLike_refl declarators)
  | .function f => .function (Function.Like.refl f) rfl
  | .expression e _ => .expression (Expr.Like.refl e)
  | .block body _ => .block (stmtsLike_refl body)
  | .branch test consequent alternate _ =>
    .branch (Expr.Like.refl test) (Stmt.Like.refl consequent) (stmtLike?_refl alternate)
  | .whileLoop test body _ => .whileLoop (Expr.Like.refl test) (Stmt.Like.refl body)
  | .forLoop init test update body _ =>
    .forLoop (forInitLike?_refl init) (exprLike?_refl test) (exprLike?_refl update) (Stmt.Like.refl body)
  | .returns argument _ => .returns (exprLike?_refl argument) fun _ => rfl
  | .throws e _ => .throws (Expr.Like.refl e)
  | .empty _ => .empty

theorem stmtsLike_refl : (stmts : List Stmt) → StmtsLike (Pairing.same exact) stmts stmts
  | [] => .nil
  | stmt :: rest => .cons (Stmt.Like.refl stmt) (stmtsLike_refl rest)

theorem stmtLike?_refl : (stmt : Option Stmt) → StmtLike? (Pairing.same exact) stmt stmt
  | none => .none
  | some stmt => .some (Stmt.Like.refl stmt)

end

end Reflexivity

/-! ## What like nodes have in common -/

variable {exact : Prop} {π : Pairing exact}

namespace Function.Like

variable {f f' : Function} (h : Function.Like π f f')

include h

theorem name_eq : f'.name = f.name := by
  obtain ⟨hname, _, _, _⟩ := h
  exact hname

theorem params_eq : f'.params.map Identifier.name = f.params.map Identifier.name := by
  obtain ⟨_, hparams, _, _⟩ := h
  exact hparams

theorem place : SamePlace exact f.span f'.span := by
  obtain ⟨_, _, hplace, _⟩ := h
  exact hplace

theorem body : StmtsLike π f.body f'.body := by
  obtain ⟨_, _, _, hbody⟩ := h
  exact hbody

theorem length_params : f'.params.length = f.params.length := by
  simpa using congrArg List.length h.params_eq

/-- The parameters of a function are the same ones in both runs. -/
theorem params_rel {α : Type} (params : List α) :
    List.Forall₂ (fun x y => y.1.name = x.1.name ∧ y.2 = x.2) (f.params.zip params)
      (f'.params.zip params) := by
  have hparams := h.params_eq
  generalize f.params = ids at hparams
  generalize f'.params = ids' at hparams
  induction params generalizing ids ids' with
  | nil => simp
  | cons param rest ih =>
    cases ids with
    | nil =>
      cases ids' with
      | nil => exact .nil
      | cons _ _ => cases hparams
    | cons id ids =>
      cases ids' with
      | nil => cases hparams
      | cons id' ids' =>
        obtain ⟨hname, hrest⟩ := List.cons.inj hparams
        exact .cons ⟨hname, rfl⟩ (ih _ _ hrest)

end Function.Like

theorem ExprsLike.length_eq {es es' : List Expr} (h : ExprsLike π es es') :
    es'.length = es.length := by
  induction es generalizing es' with
  | nil =>
    cases h
    rfl
  | cons e rest ih =>
    cases h with
    | cons _ hothers => exact congrArg (· + 1) (ih hothers)

theorem ExprsLike.getElem?_rel {es es' : List Expr} (h : ExprsLike π es es') (i : Nat) :
    ExprLike? π es[i]? es'[i]? := by
  induction es generalizing es' i with
  | nil =>
    cases h
    exact .none
  | cons e rest ih =>
    cases h with
    | cons hfirst hothers =>
      cases i with
      | zero => exact .some hfirst
      | succ i => simpa using ih hothers i

theorem PropertiesLike.isEmpty_eq {properties properties' : List Property}
    (h : PropertiesLike π properties properties') : properties'.isEmpty = properties.isEmpty := by
  cases h <;> rfl

theorem Stmt.Like.isFunction_eq {stmt stmt' : Stmt} (h : Stmt.Like π stmt stmt') :
    stmt'.isFunction = stmt.isFunction := by
  cases h <;> rfl

theorem StmtsLike.filter {stmts stmts' : List Stmt} (h : StmtsLike π stmts stmts')
    {keep : Stmt → Bool} (hkeep : ∀ stmt stmt', Stmt.Like π stmt stmt' → keep stmt' = keep stmt) :
    StmtsLike π (stmts.filter keep) (stmts'.filter keep) := by
  induction stmts generalizing stmts' with
  | nil =>
    cases h
    exact .nil
  | cons stmt rest ih =>
    cases h with
    | cons hfirst hothers =>
      rw [List.filter_cons, List.filter_cons, hkeep _ _ hfirst]
      split
      · exact .cons hfirst (ih hothers)
      · exact ih hothers

theorem Literal.kind_eq {literal literal' : Literal} (hvalue : literal'.value = literal.value)
    (hregex : literal'.regex = literal.regex) : literal'.kind = literal.kind := by
  rw [Literal.kind, Literal.kind, hvalue, hregex]

namespace Expr.Like

variable {e e' : Expr}

theorem span (h : Expr.Like π e e') : SamePlace exact e.span e'.span := by
  cases h with
  | function hfunction _ => exact hfunction.place
  | _ => assumption

/-- The name that an expression is. -/
theorem identifier?_eq (h : Expr.Like π e e') :
    (e'.identifier?.map fun id => id.name) = e.identifier?.map fun id => id.name := by
  cases h with
  | identifier hname _ => exact congrArg some hname
  | _ => rfl

theorem isThis_eq (h : Expr.Like π e e') : e'.isThis = e.isThis := by
  cases h <;> rfl

end Expr.Like

end Script

namespace Verify

open HeaderCheck.Script
open HeaderCheck.Types (TypeId)

variable {exact : Prop} {π : Pairing exact} {e e' : Expr}

/-! ## Accesses and calls -/

/-- The same access at another place. -/
structure Access.Like (π : Pairing exact) (access access' : Access) : Prop where
  object : Expr.Like π access.object access'.object
  property : Expr.Like π access.property access'.property
  computed : access'.computed = access.computed
  place : SamePlace exact access.span access'.span

/-- The same call at another place. -/
structure Call.Like (π : Pairing exact) (call call' : Call) : Prop where
  callee : Expr.Like π call.callee call'.callee
  arguments : ExprsLike π call.arguments call'.arguments
  place : SamePlace exact call.span call'.span

theorem Access.ofExpr?_rel (h : Expr.Like π e e') :
    Option.Rel (Access.Like π) (Access.ofExpr? e) (Access.ofExpr? e') := by
  cases h with
  | member hobject hproperty hplace => exact .some ⟨hobject, hproperty, rfl, hplace⟩
  | _ => exact .none

theorem Access.Like.name?_eq {access access' : Access} (h : Access.Like π access access') :
    access'.name? = access.name? := by
  rw [Access.name?, Access.name?, h.computed, h.property.identifier?_eq]

theorem isFunctionExpr_eq (h : Expr.Like π e e') : isFunctionExpr e' = isFunctionExpr e := by
  cases h <;> rfl

theorem isNullLiteral_eq (h : Expr.Like π e e') : isNullLiteral e' = isNullLiteral e := by
  cases h with
  | literal hvalue hregex _ => simp only [isNullLiteral, Literal.kind_eq hvalue hregex]
  | _ => rfl

theorem prototypeOwner?_eq (h : Expr.Like π e e') : prototypeOwner? e' = prototypeOwner? e := by
  have hrel := Access.ofExpr?_rel h
  simp only [prototypeOwner?]
  generalize Access.ofExpr? e = access at hrel
  generalize Access.ofExpr? e' = access' at hrel
  cases hrel with
  | none => rfl
  | some haccess => simp only [haccess.name?_eq, haccess.object.identifier?_eq]

/-- The name before `.prototype` in what an assignment to a method writes to. -/
theorem methodOwner?_eq (h : Expr.Like π e e') :
    ((Access.ofExpr? e').bind fun access => prototypeOwner? access.object) =
      (Access.ofExpr? e).bind fun access => prototypeOwner? access.object := by
  have hrel := Access.ofExpr?_rel h
  generalize Access.ofExpr? e = access at hrel
  generalize Access.ofExpr? e' = access' at hrel
  cases hrel with
  | none => rfl
  | some haccess => exact prototypeOwner?_eq haccess.object

theorem growingName?_eq (h : Expr.Like π e e') (type : TypeId) :
    growingName? e' type = growingName? e type := by
  rw [growingName?, growingName?, h.identifier?_eq]

theorem growingAccess?_rel (h : Expr.Like π e e') (type : TypeId) :
    Option.Rel (Access.Like π) (growingAccess? e type) (growingAccess? e' type) := by
  rw [growingAccess?, growingAccess?]
  split
  · exact Access.ofExpr?_rel h
  · exact .none

theorem Call.Like.misusesConstructor_eq {call call' : Call} (h : Call.Like π call call')
    (table : Types.Table) (shape : Types.FunctionShape) :
    call'.misusesConstructor table shape = call.misusesConstructor table shape := by
  obtain ⟨callee, arguments, span⟩ := call
  obtain ⟨callee', arguments', span'⟩ := call'
  cases h.callee with
  | identifier hname _ => simp only [Call.misusesConstructor, hname]
  | _ => rfl

theorem Call.Like.constructorName?_eq {call call' : Call} (h : Call.Like π call call') :
    call'.constructorName? = call.constructorName? := by
  obtain ⟨callee, arguments, span⟩ := call
  obtain ⟨callee', arguments', span'⟩ := call'
  cases h.callee with
  | identifier hname _ => exact congrArg some hname
  | @member _ object object' property property' computed span span' hobject hproperty hplace =>
    have haccess : Access.Like π ⟨object, property, computed, span⟩
        ⟨object', property', computed, span'⟩ :=
      ⟨hobject, hproperty, rfl, hplace⟩
    exact haccess.name?_eq
  | _ => rfl

/-! ## Conditions -/

theorem typeofOperand?_eq (h : Expr.Like π e e') : typeofOperand? e' = typeofOperand? e := by
  cases h with
  | @unary _ operator _ _ _ _ _ hargument _ =>
    by_cases hoperator : operator = "typeof"
    · subst hoperator
      exact hargument.identifier?_eq
    · simp [typeofOperand?, hoperator]
  | _ => rfl

theorem stringLiteral?_eq (h : Expr.Like π e e') : stringLiteral? e' = stringLiteral? e := by
  cases h with
  | literal hvalue _ _ => simp only [stringLiteral?, Literal.string?, hvalue]
  | _ => rfl

theorem guarded?_eq (h : Expr.Like π e e') : guarded? e' = guarded? e := by
  cases h with
  | identifier hname _ => simp only [guarded?, hname]
  | _ => rfl

theorem nullish?_eq (h : Expr.Like π e e') : nullish? e' = nullish? e := by
  cases h with
  | identifier hname _ => simp only [nullish?, hname]
  | literal hvalue hregex _ => simp only [nullish?, Literal.kind_eq hvalue hregex]
  | _ => rfl

theorem eitherOrder_eq {α β : Type} {f : Expr → Option α} {g : Expr → Option β}
    (hf : ∀ {e e' : Expr}, Expr.Like π e e' → f e' = f e)
    (hg : ∀ {e e' : Expr}, Expr.Like π e e' → g e' = g e) {left left' right right' : Expr}
    (hleft : Expr.Like π left left') (hright : Expr.Like π right right') :
    eitherOrder f g left' right' = eitherOrder f g left right := by
  simp only [eitherOrder, hf hleft, hf hright, hg hleft, hg hright]

end Verify

end HeaderCheck
