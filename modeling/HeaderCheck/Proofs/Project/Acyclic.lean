import HeaderCheck.Proofs.Header.Parallel
import HeaderCheck.Proofs.Project.Imports
import HeaderCheck.Proofs.Project.Session
import Mathlib.Data.List.Chain
import Mathlib.Logic.Relation

/-!
# HeaderCheck.Proofs.Project.Acyclic

Headers without cycles among their imports contribute the same in every session.

* `Bounded R member path n`: chains of steps from `path` through members have at most `n` members.
  Without cycles there is no longer chain than there are members.
* `Session.KnowsHeaders`: the headers that are known contribute what they do in a session of their
  own.
* `endsAlone_resolveWithin`: a header that is resolved contributes what it does in a session of its
  own, by induction on the length of chains of imports.
-/

namespace HeaderCheck

open HeaderCheck.Types (Table TypeId)

/-! ## Same as a third one -/

section Join

variable {α β γ : Type} {R : α → γ → Prop} {S : β → γ → Prop} {T : α → β → Prop}

theorem forall₂_join {l : List α} {l' : List β} {m : List γ} (h : List.Forall₂ R l m)
    (h' : List.Forall₂ S l' m) (hT : ∀ a b c, R a c → S b c → T a b) : List.Forall₂ T l l' := by
  induction h generalizing l' with
  | nil =>
    cases h'
    exact .nil
  | cons hfirst _ ih =>
    obtain ⟨b, rest, hb, hrest, rfl⟩ := List.forall₂_cons_right_iff.mp h'
    exact .cons (hT _ _ _ hfirst hb) (ih hrest)

theorem rel_join {a : Option α} {b : Option β} {c : Option γ} (h : Option.Rel R a c)
    (h' : Option.Rel S b c) (hT : ∀ a b c, R a c → S b c → T a b) : Option.Rel T a b := by
  cases h with
  | none =>
    cases h'
    exact .none
  | some ha =>
    cases h' with
    | some hb => exact .some (hT _ _ _ ha hb)

theorem SameEnd.join {ε : Type} {x : Except ε α} {y : Except ε β} {z : Except ε γ}
    (h : SameEnd R x z) (h' : SameEnd S y z) (hT : ∀ a b c, R a c → S b c → T a b) :
    SameEnd T x y := by
  cases h with
  | error e =>
    cases h'
    exact .error e
  | ok ha =>
    cases h' with
    | ok hb => exact .ok (hT _ _ _ ha hb)

end Join

theorem Types.Table.Same.join {t t' u : Table} {i i' j : TypeId} (h : t.Same u i j)
    (h' : t'.Same u i' j) : t.Same t' i i' :=
  ⟨h.left, h'.left, h.outline.trans h'.outline.symm⟩

theorem Dict.Parallel.join {α β γ : Type} {R : α → γ → Prop} {S : β → γ → Prop} {T : α → β → Prop}
    {d : Dict α} {d' : Dict β} {e : Dict γ} (h : d.Parallel R e) (h' : d'.Parallel S e)
    (hT : ∀ a b c, R a c → S b c → T a b) : d.Parallel T d' := by
  unfold Dict.Parallel Dict.Related at *
  exact forall₂_join h h' fun _ _ _ hx hy => ⟨hx.1.trans hy.1.symm, hT _ _ _ hx.2 hy.2⟩

theorem Header.Lowered.Parallel.join {t t' u : Table} {h h' k : Header.Lowered}
    (hk : h.Parallel (t.Same u) k) (hk' : h'.Parallel (t'.Same u) k) : h.Parallel (t.Same t') h' where
  assignments := forall₂_join hk.assignments hk'.assignments fun _ _ _ hx hy =>
    ⟨hx.1.trans hy.1.symm, hx.2.join hy.2⟩
  declarations := hk.declarations.join hk'.declarations fun _ _ _ => Table.Same.join
  diagnostics := hk'.diagnostics.symm.trans hk.diagnostics

/-! ## Chains -/

/-- Chains of steps from `path` through members have at most `n` members. -/
def Bounded (R : String → String → Prop) (member : String → Prop) (path : String) (n : Nat) : Prop :=
  ∀ chain, (path :: chain).IsChain R → (∀ x ∈ path :: chain, member x) → (path :: chain).length ≤ n

section Bounded

variable {R : String → String → Prop} {member : String → Prop} {path target : String} {n : Nat}

theorem Bounded.pos (h : Bounded R member path n) (hpath : member path) : 0 < n :=
  h [] (.singleton path) (by simpa using hpath)

theorem Bounded.next (h : Bounded R member path (n + 1)) (hpath : member path) (hstep : R path target) :
    Bounded R member target n := by
  intro chain hchain hmem
  exact Nat.le_of_succ_le_succ
    (h (target :: chain) (.cons_cons hstep hchain) (List.forall_mem_cons.mpr ⟨hpath, hmem⟩))

/-- Without cycles no member is twice in a chain. -/
theorem bounded_of_acyclic (h : ∀ x, ¬Relation.TransGen R x x) {members : List String}
    (hmembers : ∀ x, member x → x ∈ members) (path : String) :
    Bounded R member path members.length := by
  intro chain hchain hmem
  have htrans : (path :: chain).IsChain (Relation.TransGen R) := hchain.imp fun _ _ => .single
  have hnodup : (path :: chain).Nodup := by
    refine htrans.pairwise.imp fun {x y} hxy heq => ?_
    subst heq
    exact h x hxy
  exact hnodup.length_le_of_subset fun x hx => hmembers x (hmem x hx)

end Bounded

namespace Project

open HeaderCheck.Header (Lowered Lowering lowering)

variable {host : Host} {options : Options} {s s' : Session}

/-! ## Results in a session of their own -/

/-- A result that is there, or an error, agrees with the one in a session of its own. -/
structure Agrees {α : Type} (K : (TypeId → TypeId → Prop) → α → α → Prop) (t : Table)
    (result : Except Error (Option α)) (alone : Except Error (Option α) × Session) : Prop where
  table : alone.2.table.WellFormed
  result : SameEnd (Option.Rel (K (t.Same alone.2.table))) result alone.1

/-- A way to relate results through the handles in them. -/
structure Carries {α : Type} (K : (TypeId → TypeId → Prop) → α → α → Prop) : Prop where
  mono : ∀ {R S a a'}, K R a a' → (∀ i i', R i i' → S i i') → K S a a'
  join : ∀ {t t' u : Table} {a a' b}, K (t.Same u) a b → K (t'.Same u) a' b → K (t.Same t') a a'

section Agrees

variable {α : Type} {K : (TypeId → TypeId → Prop) → α → α → Prop} {t u : Table}
  {result result' : Except Error (Option α)} {alone : Except Error (Option α) × Session}

theorem Agrees.extend (h : Agrees K t result alone) (hK : Carries K) (ht : t.WellFormed)
    (hu : u.WellFormed) (hx : t.Extends u) : Agrees K u result alone :=
  ⟨h.table, h.result.mono fun _ _ hrel => by
    cases hrel with
    | none => exact .none
    | some hl => exact .some (hK.mono hl fun _ _ hi => hi.extend ht h.table hu h.table hx (.refl _))⟩

/-- What agrees with the same agrees. -/
theorem Agrees.join (h : Agrees K t result alone) (h' : Agrees K u result' alone) (hK : Carries K) :
    SameEnd (Option.Rel (K (t.Same u))) result result' :=
  h.result.join h'.result fun _ _ _ hx hy => rel_join hx hy fun _ _ _ => hK.join

end Agrees

theorem carries_lowered : Carries Lowered.Parallel :=
  ⟨fun h hRS => h.mono hRS, fun h h' => h.join h'⟩

/-! ## Known headers -/

/-- The header at `path` imports the one at `target`, which is a normal path. -/
def Host.ImportsFrom (host : Host) (options : Options) (path target : String) : Prop :=
  ∃ other, host.Imports options path other ∧ target = Path.normalize other

/-- What a header contributes in a session of its own. -/
def resolveAlone (host : Host) (options : Options) (path : String) :
    Except Error (Option Lowered) × Session :=
  (resolveHeader host options path).run {}

theorem resolveAlone_eq (host : Host) (options : Options) (path : String) :
    resolveAlone host options path =
      (resolveWithin host options (host.headers.size + 1) path).run {} :=
  rfl

theorem Host.mem_keys_of_header? (host : Host) {path : String} {header : Signature.Header}
    (h : host.header? (Path.normalize path) = some header) :
    Path.normalize path ∈ host.headers.keys := by
  rw [Host.header?, Path.normalize_normalize] at h
  exact List.mem_map.mpr ⟨_, Dict.mem_entries_of_get? h, rfl⟩

theorem resolveWithin_normalize (host : Host) (options : Options) (fuel : Nat) (path : String) :
    resolveWithin host options fuel (Path.normalize path) = resolveWithin host options fuel path := by
  cases fuel with
  | zero => rfl
  | succ fuel => simp only [resolveWithin, Path.normalize_normalize]

/-- The headers that are known contribute what they do in a session of their own. -/
structure Session.KnowsHeaders (host : Host) (options : Options) (s : Session) : Prop where
  table : s.table.WellFormed
  headers : ∀ path header, s.headers.get? path = some header →
    Agrees Lowered.Parallel s.table (.ok header) (resolveAlone host options path)

theorem Session.KnowsHeaders.withTable (h : s.KnowsHeaders host options) {u : Table} (hu : u.WellFormed)
    (hx : s.table.Extends u) : ({ s with table := u } : Session).KnowsHeaders host options :=
  ⟨hu, fun path header hget => (h.headers path header hget).extend carries_lowered h.table hu hx⟩

theorem Session.KnowsHeaders.congr (h : s.KnowsHeaders host options) (htable : s'.table = s.table)
    (hheaders : s'.headers = s.headers) : s'.KnowsHeaders host options := by
  refine ⟨htable ▸ h.table, ?_⟩
  rw [htable, hheaders]
  exact h.headers

theorem Session.KnowsHeaders.insert (h : s.KnowsHeaders host options) {path : String}
    {header : Option Lowered} (ha : Agrees Lowered.Parallel s.table (.ok header) (resolveAlone host options path)) :
    ({ s with headers := s.headers.insert path header } : Session).KnowsHeaders host options := by
  refine ⟨h.table, fun other found hget => ?_⟩
  rw [Dict.get?_insert] at hget
  split at hget
  · next heq =>
    subst heq
    cases hget
    exact ha
  · exact h.headers other found hget

/-! ## Two runs -/

/-- What the sessions of two runs have in common, whatever types are added. -/
structure Joint where
  Meets : Session → Session → Prop
  left : ∀ {s s'}, Meets s s' → s.table.WellFormed
  right : ∀ {s s'}, Meets s s' → s'.table.WellFormed
  grow : ∀ {s s' : Session} {u u' : Table}, Meets s s' → u.WellFormed → u'.WellFormed →
    s.table.Extends u → s'.table.Extends u' → Meets { s with table := u } { s' with table := u' }

/-- The sessions of two runs. -/
def Joint.sessions (J : Joint) : Accord Session where
  table := Session.table
  Meets := J.Meets
  left := J.left
  right := J.right

/-- Two sessions in which known headers contribute the same, with the headers that are being
lowered in each. -/
def underway (host : Host) (options : Options) (under under' : List String) : Joint where
  Meets := fun s s' => (s.KnowsHeaders host options ∧ s.lowering = under) ∧
    s'.KnowsHeaders host options ∧ s'.lowering = under'
  left := fun h => h.1.1.table
  right := fun h => h.2.1.table
  grow := fun h hu hu' hx hx' => ⟨⟨h.1.1.withTable hu hx, h.1.2⟩, h.2.1.withTable hu' hx', h.2.2⟩

def lowerings (host : Host) (options : Options) (under under' : List String) : Accord Session :=
  (underway host options under under').sessions

variable {under under' : List String} {p q : Session × Session}

/-- The same contribution of a header, if there is one, in both runs. -/
abbrev Headers? (A : Accord Session) (h h' : Option Lowered) (q : Session × Session) : Prop :=
  Option.Rel (Lowered.Parallel (A.Same q)) h h'

theorem onward_tables {J : Joint} (hp : J.Meets p.1 p.2) {u u' : Table} (hu : u.WellFormed)
    (hu' : u'.WellFormed) (hx : p.1.table.Extends u) (hx' : p.2.table.Extends u') :
    J.sessions.Onward p ({ p.1 with table := u }, { p.2 with table := u' }) :=
  ⟨hp, J.grow hp hu hu' hx hx', hx, hx'⟩

theorem lockstep_whileLowering (path : String) {α : Type} {m m' : SessionM α}
    {Q : α → α → Session × Session → Prop}
    (h : ∀ q, q.1.table = p.1.table → q.2.table = p.2.table →
      Lockstep (lowerings host options (path :: under) (path :: under')) q m m' Q)
    (hQ : ∀ a a' r l l', Q a a' r →
      Q a a' ({ r.1 with lowering := l }, { r.2 with lowering := l' })) :
    Lockstep (lowerings host options under under') p (whileLowering path m) (whileLowering path m')
      Q := by
  intro hp
  obtain ⟨⟨hknows, hunder⟩, hknows', hunder'⟩ := hp
  obtain ⟨result, result', q, hrun, hrun', hq, hend⟩ := h
    ({ p.1 with lowering := path :: p.1.lowering }, { p.2 with lowering := path :: p.2.lowering })
    rfl rfl ⟨⟨hknows.congr rfl rfl, congrArg _ hunder⟩, hknows'.congr rfl rfl, congrArg _ hunder'⟩
  obtain ⟨⟨hqknows, hqunder⟩, hqknows', hqunder'⟩ := hq.meets
  refine ⟨result, result', ({ q.1 with lowering := q.1.lowering.tail },
    { q.2 with lowering := q.2.lowering.tail }), ?_, ?_, ⟨⟨⟨hknows, hunder⟩, hknows', hunder'⟩,
    ⟨⟨hqknows.congr rfl rfl, congrArg List.tail hqunder⟩,
      hqknows'.congr rfl rfl, congrArg List.tail hqunder'⟩, hq.left, hq.right⟩,
    hend.mono fun a a' h => hQ a a' q _ _ h⟩
  · exact congrArg (fun run : Except Error α × Session =>
      (run.1, { run.2 with lowering := run.2.lowering.tail })) hrun
  · exact congrArg (fun run : Except Error α × Session =>
      (run.1, { run.2 with lowering := run.2.lowering.tail })) hrun'

/-! ## Imports -/

/-- The same lowering in both runs, on the tables of the sessions. -/
structure OnSessions (path : String) (l l' : Lowering) (q : Session × Session) : Prop where
  path : l.path = path
  parallel : Lowering.Parallel { l with table := q.1.table } { l' with table := q.2.table }

theorem OnSessions.onward {J : Joint} {path : String} {l l' : Lowering} {r : Session × Session}
    (h : OnSessions path l l' q) (hr : J.sessions.Onward q r) : OnSessions path l l' r :=
  ⟨h.path, h.parallel.withTable (J.left hr.meets) (J.right hr.meets) hr.left hr.right⟩

theorem OnSessions.report {path : String} {l l' : Lowering} (h : OnSessions path l l' q)
    (kind : Report.Kind) (fields : List (String × String)) :
    OnSessions path (l.report kind fields) (l'.report kind fields) q := by
  have hpath : l'.path = l.path := h.parallel.path
  have hold : l'.diagnostics = l.diagnostics := h.parallel.diagnostics
  have hdiagnostics : (l'.report kind fields).diagnostics = (l.report kind fields).diagnostics := by
    simp only [Lowering.report, hpath, hold]
  exact ⟨h.path, { h.parallel with diagnostics := hdiagnostics }⟩

/-- The headers at hand are resolved to the same. -/
def ResolvesAlike (A : Accord Session) (targets : String → Prop)
    (resolve resolve' : String → SessionM (Option Lowered)) : Prop :=
  ∀ p target, targets target → Lockstep A p (resolve target) (resolve' target) (Headers? A)

/-- What a header imports. -/
def Targets (options : Options) (path : String) (statements : List Signature.Statement)
    (target : String) : Prop :=
  ∃ dependency items, Signature.Statement.imports dependency items ∈ statements ∧
    Path.isRequest dependency ∧
    target = options.importTarget path dependency

section Imports

variable {J : Joint} {resolve resolve' : String → SessionM (Option Lowered)} {path : String}

theorem path_importFrom (l : Lowering) (header : Lowered) (items : List Signature.TypeExpr) :
    (l.importFrom header items).path = l.path := by
  have hstep (l : Lowering) (item : Signature.TypeExpr) :
      (l.importType header.declarations item).path = l.path := by
    unfold Lowering.importType
    split
    · rfl
    split
    · rfl
    split <;> rfl
  have hfold (l : Lowering) : (items.foldl (fun l item => l.importType header.declarations item) l).path =
      l.path := by
    induction items generalizing l with
    | nil => rfl
    | cons item rest ih => exact (ih _).trans (hstep l item)
  exact hfold _

theorem lockstep_lowerImport {statements : List Signature.Statement} {dependency : String}
    {items : List Signature.TypeExpr}
    (hr : ResolvesAlike J.sessions (Targets options path statements) resolve resolve')
    (hmem : .imports dependency items ∈ statements) {l l' : Lowering} (hl : OnSessions path l l' p) :
    Lockstep J.sessions p (lowerImport resolve options l dependency items)
      (lowerImport resolve' options l' dependency items) (OnSessions path) := by
  have hpath : l'.path = path := hl.parallel.path.trans hl.path
  rw [lowerImport, lowerImport, hpath, hl.path]
  split
  · exact .pure fun _ => hl.report _ _
  next hrequest =>
  refine .bind (hr p _ ⟨dependency, items, hmem, by simpa using hrequest, rfl⟩)
    fun header header' q hq hheader => ?_
  have hlq := hl.onward hq
  cases hheader with
  | none => exact .pure fun _ => hlq.report _ _
  | some hheader =>
    intro hmeets
    have honward := Lowering.Parallel.importFrom hlq.parallel hheader items
    exact ⟨_, _, ({ q.1 with table := _ }, { q.2 with table := _ }), rfl, rfl,
      onward_tables hmeets honward.meets.left honward.meets.right honward.left honward.right,
      .ok ⟨(path_importFrom _ _ items).trans hl.path, honward.meets⟩⟩

theorem lockstep_lowerImports {statements : List Signature.Statement}
    (hr : ResolvesAlike J.sessions (Targets options path statements) resolve resolve') {rest : List Signature.Statement} (hsub : rest ⊆ statements) {l l' : Lowering}
    (hl : OnSessions path l l' p) :
    Lockstep J.sessions p (lowerImports resolve options l rest)
      (lowerImports resolve' options l' rest) (OnSessions path) := by
  induction rest generalizing p l l' with
  | nil => exact .pure fun _ => hl
  | cons statement rest ih =>
    have hmem := hsub List.mem_cons_self
    have hrest := List.Subset.trans (List.subset_cons_self statement rest) hsub
    cases statement with
    | imports dependency items =>
      exact .bind (lockstep_lowerImport hr hmem hl) fun _ _ _ _ hl => ih hrest hl
    | _ => exact ih hrest hl

theorem lockstep_lowerHeader {header : Signature.Header}
    (hr : ResolvesAlike J.sessions (Targets options path header.statements) resolve resolve') :
    Lockstep J.sessions p (lowerHeader resolve options path header)
      (lowerHeader resolve' options path header)
      fun h h' q => h.Parallel (J.sessions.Same q) h' := by
  refine .get_bind fun hp => ?_
  have hstart : OnSessions path { table := p.1.table, path, declarations := Header.declarationsOf header }
      { table := p.2.table, path, declarations := Header.declarationsOf header } p :=
    ⟨rfl, J.left hp, J.right hp, rfl, rfl, .empty, rfl, .empty, .nil, rfl⟩
  refine .bind (lockstep_lowerImports hr (List.Subset.refl _) hstart) fun l l' q _ hl => ?_
  intro hq
  obtain ⟨result, result', r, hrun, hrun', honward, hend⟩ := Header.lockstep_lowerStatements header
    (p := ({ l with table := q.1.table }, { l' with table := q.2.table })) hl.parallel
  refine ⟨result, result', ({ q.1 with table := r.1.table }, { q.2 with table := r.2.table }), ?_, ?_,
    onward_tables hq honward.meets.left honward.meets.right honward.left honward.right, hend⟩
  · rw [ExceptT.run_mk]
    simp only [hrun]
  · rw [ExceptT.run_mk]
    simp only [hrun']

end Imports

/-! ## Headers without cycles -/

/-- How a run ends that resolves a header, next to one in a session of its own. -/
structure EndsAlone (host : Host) (options : Options) (path : String) (s : Session)
    (run : Except Error (Option Lowered) × Session) : Prop where
  knows : run.2.KnowsHeaders host options
  lowering : run.2.lowering = s.lowering
  table : s.table.Extends run.2.table
  agrees : Agrees Lowered.Parallel run.2.table run.1 (resolveAlone host options path)

/-- Two runs that end as one in a session of its own end alike. -/
theorem EndsAlone.lockstep (path : String) {m m' : SessionM (Option Lowered)}
    (h : p.1.lowering = under → p.1.KnowsHeaders host options →
      EndsAlone host options path p.1 (m.run p.1))
    (h' : p.2.lowering = under' → p.2.KnowsHeaders host options →
      EndsAlone host options path p.2 (m'.run p.2)) :
    Lockstep (lowerings host options under under') p m m'
      (Headers? (lowerings host options under under')) := by
  rintro ⟨⟨hknows, hunder⟩, hknows', hunder'⟩
  have hleft := h hunder hknows
  have hright := h' hunder' hknows'
  refine ⟨(m.run p.1).1, (m'.run p.2).1, ((m.run p.1).2, (m'.run p.2).2), rfl, rfl,
    ⟨⟨⟨hknows, hunder⟩, hknows', hunder'⟩, ⟨⟨hleft.knows, hleft.lowering.trans hunder⟩,
      hright.knows, hright.lowering.trans hunder'⟩, hleft.table, hright.table⟩, ?_⟩
  exact hleft.agrees.join hright.agrees carries_lowered

theorem knowsHeaders_empty : ({} : Session).KnowsHeaders host options :=
  ⟨Table.wellFormed_initial, nofun⟩

theorem resolveAlone_normalize (host : Host) (options : Options) (path : String) :
    resolveAlone host options (Path.normalize path) = resolveAlone host options path := by
  rw [resolveAlone, resolveHeader, resolveWithin_normalize]
  rfl

theorem Session.KnowsHeaders.insert_normalize (h : s.KnowsHeaders host options) {path : String}
    {header : Option Lowered} (ha : Agrees Lowered.Parallel s.table (.ok header) (resolveAlone host options path)) :
    ({ s with headers := s.headers.insert (Path.normalize path) header } : Session).KnowsHeaders host
      options := by
  rw [← resolveAlone_normalize] at ha
  exact h.insert ha

section Runs

variable {fuel : Nat} {path : String}

theorem run_resolveWithin_known {known : Option Lowered}
    (h : s.headers.get? (Path.normalize path) = some known) :
    (resolveWithin host options (fuel + 1) path).run s = (.ok known, s) := by
  rw [resolveWithin]
  simp only [run_get_bind, h, run_pure]

theorem run_resolveWithin_missing (h : s.headers.get? (Path.normalize path) = none)
    (hfree : Path.normalize path ∉ s.lowering) (hheader : host.header? (Path.normalize path) = none) :
    (resolveWithin host options (fuel + 1) path).run s =
      (.ok none, { s with headers := s.headers.insert (Path.normalize path) none }) := by
  rw [resolveWithin]
  simp only [run_get_bind, h, List.contains_eq_mem, hfree, hheader]
  rfl

theorem run_resolveWithin_header {header : Signature.Header}
    (h : s.headers.get? (Path.normalize path) = none) (hfree : Path.normalize path ∉ s.lowering)
    (hheader : host.header? (Path.normalize path) = some header) {result : Except Error Lowered}
    {s' : Session}
    (hrun : (whileLowering (Path.normalize path) (lowerHeader (resolveWithin host options fuel) options
      (Path.normalize path) header)).run s = (result, s')) :
    (resolveWithin host options (fuel + 1) path).run s =
      match result with
      | .ok lowered => (.ok (some lowered),
          { s' with headers := s'.headers.insert (Path.normalize path) (some lowered) })
      | .error e => (.error e, s') := by
  rw [resolveWithin]
  simp only [run_get_bind, h, List.contains_eq_mem, hfree, hheader]
  cases result with
  | ok lowered => exact run_bind_ok hrun _
  | error e => exact run_bind_error hrun _

end Runs

/-- A header that is lowered as in a session of its own comes to what it does there. -/
theorem endsAlone_of_lockstep {path : String} {fuel : Nat} (hs : s.KnowsHeaders host options)
    (hfree : Path.normalize path ∉ s.lowering)
    (h : ∀ header, host.header? (Path.normalize path) = some header →
      Lockstep (lowerings host options s.lowering []) (s, {})
        (whileLowering (Path.normalize path) (lowerHeader (resolveWithin host options fuel) options
          (Path.normalize path) header))
        (whileLowering (Path.normalize path) (lowerHeader
          (resolveWithin host options host.headers.size) options (Path.normalize path) header))
        fun h h' q => h.Parallel ((lowerings host options s.lowering []).Same q) h') :
    EndsAlone host options path s ((resolveWithin host options (fuel + 1) path).run s) := by
  have hempty : ({} : Session).headers.get? (Path.normalize path) = none := rfl
  cases hknown : s.headers.get? (Path.normalize path) with
  | some known =>
    have hagrees := hs.headers _ known hknown
    rw [resolveAlone_normalize] at hagrees
    rw [run_resolveWithin_known hknown]
    exact ⟨hs, rfl, .refl _, hagrees⟩
  | none =>
    cases hheader : host.header? (Path.normalize path) with
    | none =>
      have hagrees : Agrees Lowered.Parallel s.table (.ok none) (resolveAlone host options path) := by
        rw [resolveAlone_eq, run_resolveWithin_missing hempty List.not_mem_nil hheader]
        exact ⟨Table.wellFormed_initial, .ok .none⟩
      rw [run_resolveWithin_missing hknown hfree hheader]
      exact ⟨hs.insert_normalize hagrees, rfl, .refl _, hagrees⟩
    | some header =>
      have hstart : (lowerings host options s.lowering []).Meets s {} :=
        ⟨⟨hs, rfl⟩, knowsHeaders_empty, rfl⟩
      obtain ⟨result, result', q, hrun, hrun', hq, hend⟩ := h header hheader hstart
      obtain ⟨⟨hknows, hunder⟩, hknows', -⟩ := hq.meets
      have halone := (resolveAlone_eq host options path).trans
        (run_resolveWithin_header hempty List.not_mem_nil hheader hrun')
      rw [run_resolveWithin_header hknown hfree hheader hrun]
      cases hend with
      | error e =>
        exact ⟨hknows, hunder, hq.left, by rw [halone]; exact ⟨hknows'.table, .error e⟩⟩
      | @ok lowered lowered' hlowered =>
        have hagrees : Agrees Lowered.Parallel q.1.table (.ok (some lowered))
            (resolveAlone host options path) := by
          rw [halone]
          exact ⟨hknows'.table, .ok (.some hlowered)⟩
        exact ⟨hknows.insert_normalize hagrees, hunder, hq.left,
          hagrees⟩

/-- A header comes to what it contributes in a session of its own, if chains of imports from it are
bounded and all headers that are being lowered lead to it. -/
theorem endsAlone_resolveWithin
    (hacyclic : ∀ path, ¬Relation.TransGen (host.ImportsFrom options) path path) {n : Nat}
    (hn : n ≤ host.headers.size) {path : String}
    (hbound : Bounded (host.ImportsFrom options) (· ∈ host.headers.keys) (Path.normalize path) n)
    {fuel : Nat} (hfuel : n ≤ fuel) {s : Session} (hs : s.KnowsHeaders host options)
    (hunder : ∀ x ∈ s.lowering, Relation.TransGen (host.ImportsFrom options) x (Path.normalize path)) :
    EndsAlone host options path s ((resolveWithin host options (fuel + 1) path).run s) := by
  have hfree : Path.normalize path ∉ s.lowering := fun hmem => hacyclic _ (hunder _ hmem)
  induction n generalizing path fuel s with
  | zero =>
    refine endsAlone_of_lockstep hs hfree fun header hheader => ?_
    exact absurd (hbound.pos (host.mem_keys_of_header? hheader)) (Nat.lt_irrefl 0)
  | succ n ih =>
    obtain ⟨fuel, rfl⟩ : ∃ k, fuel = k + 1 := ⟨fuel - 1, by omega⟩
    obtain ⟨size, hsize⟩ : ∃ k, host.headers.size = k + 1 := ⟨host.headers.size - 1, by omega⟩
    refine endsAlone_of_lockstep hs hfree fun header hheader => ?_
    refine lockstep_whileLowering _ (fun q _ _ => lockstep_lowerHeader fun p target htarget => ?_)
      fun _ _ _ _ _ h => h
    have hstep : host.ImportsFrom options (Path.normalize path) (Path.normalize target) := by
      obtain ⟨dependency, items, hmem, hrequest, htarget⟩ := htarget
      exact ⟨target, ⟨header, dependency, items, hheader, hmem, hrequest, htarget⟩, rfl⟩
    have hnext := hbound.next (host.mem_keys_of_header? hheader) hstep
    -- Both runs stand below the header at `path`, so what they lower leads to the target as well.
    have hboth {under : List String}
        (hunder : ∀ x ∈ under, Relation.TransGen (host.ImportsFrom options) x (Path.normalize path))
        {fuel : Nat} (hfuel : n ≤ fuel) {s : Session} (hs : s.KnowsHeaders host options)
        (hlowering : s.lowering = Path.normalize path :: under) :
        EndsAlone host options target s ((resolveWithin host options (fuel + 1) target).run s) := by
      have hall : ∀ x ∈ s.lowering,
          Relation.TransGen (host.ImportsFrom options) x (Path.normalize target) := by
        rw [hlowering]
        exact List.forall_mem_cons.mpr ⟨.single hstep, fun x hx => (hunder x hx).tail hstep⟩
      exact ih (by omega) hnext hfuel hs hall fun hmem => hacyclic _ (hall _ hmem)
    rw [hsize]
    exact EndsAlone.lockstep target (fun hlowering hknows => hboth hunder (by omega) hknows hlowering)
      fun hlowering hknows => hboth (by simp) (by omega) hknows hlowering

/-- Where no header is being lowered, a header comes to what it contributes in a session of its own. -/
theorem endsAlone_resolveHeader
    (hacyclic : ∀ path, ¬Relation.TransGen (host.ImportsFrom options) path path)
    (hs : s.KnowsHeaders host options) (hidle : s.lowering = []) (path : String) :
    EndsAlone host options path s ((resolveHeader host options path).run s) := by
  have hsize : host.headers.keys.length = host.headers.size := List.length_map _
  have hbound : Bounded (host.ImportsFrom options) (· ∈ host.headers.keys) (Path.normalize path)
      host.headers.keys.length := bounded_of_acyclic hacyclic (fun _ => id) _
  exact endsAlone_resolveWithin hacyclic (by omega) hbound (by omega) hs (by simp [hidle])

end Project

end HeaderCheck
