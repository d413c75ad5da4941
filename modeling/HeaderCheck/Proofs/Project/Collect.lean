import HeaderCheck.Proofs.Builtins
import HeaderCheck.Proofs.Project.Advance
import HeaderCheck.Proofs.Project.Termination

/-!
# HeaderCheck.Proofs.Project.Collect

The diagnostics of an entry, as a list of files.

* `Depends`: one checked file has recorded another one as its dependency. Files are completed after
  all that they depend on, so this has no cycles, whatever the sources require.
* `InOrder`: different checked files, each after all checked files that it depends on.
* `Walk`: what the collection of diagnostics adds to the files that have been passed. The seen paths
  are those of files that have been passed and of files that are open; an open file was completed
  after the one at hand, so none of the latter's dependencies is open.
-/

namespace HeaderCheck.Project

open HeaderCheck.Report (Diagnostic)
open Relation (ReflTransGen TransGen)

variable {host : Host} {options : Options} {files : Dict FileResult}

/-! ## Completed files -/

/-- No path is both that of a source and that of the header of a package. -/
def Host.Apart (host : Host) (options : Options) : Prop :=
  ∀ path, host.Defines options path → host.source? path = none

namespace Completed

variable {entries : List (String × FileResult)} {path : String} {result : FileResult}

theorem source (h : Completed host options entries) (hget : Dict.lookup path entries = some result) :
    (host.source? path).isSome := by
  have hkey : path ∈ entries.map Prod.fst := List.mem_map.mpr ⟨_, Dict.mem_of_lookup hget, rfl⟩
  clear hget
  induction h with
  | none => cases hkey
  | more _ hsource _ _ ih =>
    rw [List.map_append, List.mem_append] at hkey
    rcases hkey with hkey | hkey
    · exact ih hkey
    · rwa [List.mem_singleton.mp hkey]

/-- A file was completed after what it depends on. -/
theorem idxOf_lt (h : Completed host options entries) (hget : Dict.lookup path entries = some result)
    {dependency : String} (hmem : dependency ∈ result.dependencies) :
    (entries.map Prod.fst).idxOf dependency < (entries.map Prod.fst).idxOf path ∨
      host.Defines options dependency := by
  induction h with
  | none => cases hget
  | @more entries last lastResult _ _ hfresh hdependencies ih =>
    rw [List.map_append]
    cases hold : Dict.lookup path entries with
    | some old =>
      rw [Dict.lookup_append_of_some hold] at hget
      cases hget
      have hkey : path ∈ entries.map Prod.fst := List.mem_map.mpr ⟨_, Dict.mem_of_lookup hold, rfl⟩
      refine (ih hold).imp_left fun hlt => ?_
      have hlength := List.idxOf_lt_length_of_mem hkey
      have hdependency : dependency ∈ entries.map Prod.fst :=
        List.idxOf_lt_length_iff.mp (Nat.lt_trans hlt hlength)
      rwa [List.idxOf_append_of_mem hkey, List.idxOf_append_of_mem hdependency]
    | none =>
      have hnew := Dict.lookup_eq_none_iff.mp hold
      have hlast := Dict.mem_of_lookup hget
      rcases List.mem_append.mp hlast with hlast | hlast
      · exact absurd (List.mem_map.mpr ⟨_, hlast, rfl⟩) hnew
      obtain ⟨rfl, rfl⟩ := Prod.mk.inj (List.mem_singleton.mp hlast)
      refine (hdependencies dependency hmem).imp_left fun hdependency => ?_
      rw [List.idxOf_append_of_mem hdependency, List.idxOf_append_of_notMem hnew]
      exact Nat.lt_of_lt_of_le (List.idxOf_lt_length_of_mem hdependency) (Nat.le_add_right _ _)

end Completed

/-! ## Files in order -/

/-- The file at `path` has been checked and depends on the checked file at `dependency`. -/
def Depends (files : Dict FileResult) (path dependency : String) : Prop :=
  ∃ result, files.get? path = some result ∧ dependency ∈ result.dependencies ∧
    dependency ∈ files.keys

/-- Files that depend on earlier ones only. `position` tells when a file was completed. -/
structure Ranked (files : Dict FileResult) (position : String → Nat) : Prop where
  descends : ∀ {path dependency}, Depends files path dependency → position dependency < position path
  bounded : ∀ path ∈ files.keys, position path < files.size

theorem ranked_of_completed (h : Completed host options files.entries) (hapart : host.Apart options) :
    Ranked files files.keys.idxOf where
  descends := by
    rintro path dependency ⟨result, hget, hmem, hkey⟩
    refine (h.idxOf_lt hget hmem).resolve_right fun hdefined => ?_
    obtain ⟨found, hfound⟩ := Dict.mem_keys_iff.mp hkey
    have hsource := h.source hfound
    rw [hapart dependency hdefined] at hsource
    cases hsource
  bounded := by
    intro path hkey
    have hlt := List.idxOf_lt_length_of_mem hkey
    rwa [Dict.keys, List.length_map] at hlt

/-- Different checked files, each after all checked files that it depends on. -/
inductive InOrder (files : Dict FileResult) : List String → Prop where
  | none : InOrder files []
  | more {paths : List String} {path : String} (earlier : InOrder files paths)
      (checked : path ∈ files.keys) (fresh : path ∉ paths)
      (dependencies : ∀ dependency, Depends files path dependency → dependency ∈ paths) :
      InOrder files (paths ++ [path])

namespace InOrder

variable {paths : List String}

theorem nodup (h : InOrder files paths) : paths.Nodup := by
  induction h with
  | none => exact List.nodup_nil
  | more _ _ hfresh _ ih =>
    refine List.nodup_append.mpr ⟨ih, List.nodup_singleton _, fun path hpath other hother => ?_⟩
    rw [List.mem_singleton.mp hother]
    rintro rfl
    exact hfresh hpath

theorem checked (h : InOrder files paths) {path : String} (hmem : path ∈ paths) : path ∈ files.keys := by
  induction h with
  | none => cases hmem
  | more _ hchecked _ _ ih =>
    rcases List.mem_append.mp hmem with hmem | hmem
    · exact ih hmem
    · rwa [List.mem_singleton.mp hmem]

/-- What a file depends on stands before it. -/
theorem earlier (h : InOrder files paths) {before after : List String} {path dependency : String}
    (hpaths : paths = before ++ path :: after) (hdepends : Depends files path dependency) :
    dependency ∈ before := by
  induction h generalizing after with
  | none => simp at hpaths
  | @more paths last hin hchecked hfresh hdependencies ih =>
    rcases List.eq_nil_or_concat after with rfl | ⟨rest, final, rfl⟩
    · obtain ⟨rfl, hlast⟩ := List.append_inj' hpaths rfl
      cases hlast
      exact hdependencies dependency hdepends
    · rw [List.concat_eq_append, ← List.cons_append, ← List.append_assoc] at hpaths
      exact ih (List.append_inj' hpaths rfl).1

theorem mem_of_depends (h : InOrder files paths) {path dependency : String} (hmem : path ∈ paths)
    (hdepends : Depends files path dependency) : dependency ∈ paths := by
  obtain ⟨before, after, hpaths⟩ := List.append_of_mem hmem
  rw [hpaths]
  exact List.mem_append_left _ (h.earlier hpaths hdepends)

/-- With a file all that it reaches is there. -/
theorem mem_of_reaches (h : InOrder files paths) {path reached : String} (hmem : path ∈ paths)
    (hreaches : ReflTransGen (Depends files) path reached) : reached ∈ paths := by
  induction hreaches with
  | refl => exact hmem
  | tail _ hdepends ih => exact h.mem_of_depends ih hdepends

end InOrder

/-! ## The walk -/

/-- The own diagnostics of a checked file. -/
def ownDiagnostics (files : Dict FileResult) (path : String) : List Diagnostic :=
  match files.get? path with
  | some result => result.diagnostics
  | none => []

/-- Where a part of the collection begins: the diagnostics of the files `passed` have been taken, and
all other seen files were completed no earlier than `bound`. -/
structure Begun (files : Dict FileResult) (position : String → Nat) (bound : Nat)
    (passed seen : List String) : Prop where
  inOrder : InOrder files passed
  subset : passed ⊆ seen
  opened : ∀ path ∈ seen, path ∈ files.keys → path ∈ passed ∨ bound ≤ position path

/-- What a part of the collection has added: the files `more`, all of them from `below`. -/
structure Walk (files : Dict FileResult) (below : String → Prop) (passed seen more : List String)
    (collected : List String × List Diagnostic) : Prop where
  inOrder : InOrder files (passed ++ more)
  subset : passed ++ more ⊆ collected.1
  fresh : ∀ path ∈ collected.1, path ∈ files.keys → path ∈ passed ++ more ∨ path ∈ seen
  diagnostics : collected.2 = more.flatMap (ownDiagnostics files)
  reached : ∀ path ∈ more, below path

/-- What the collection from one file on does. -/
def Walks (files : Dict FileResult) (position : String → Nat) (fuel : Nat) : Prop :=
  ∀ path result passed seen, files.get? path = some result → path ∈ seen → path ∉ passed →
    position path < fuel → Begun files position (position path) passed seen →
      ∃ more, Walk files (ReflTransGen (Depends files) path) passed seen (more ++ [path])
        (collectWithin files fuel result seen)

variable {position : String → Nat} {fuel : Nat} {root : String} {passed seen more : List String}
  {acc : List String × List Diagnostic} {dependency : String}

theorem Ranked.lt_of_transGen (h : Ranked files position) {path reached : String}
    (hreaches : TransGen (Depends files) path reached) : position reached < position path := by
  induction hreaches with
  | single hdepends => exact h.descends hdepends
  | tail _ hdepends ih => exact Nat.lt_trans (h.descends hdepends) ih

namespace Walk

theorem start {below : String → Prop} {bound : Nat} (h : Begun files position bound passed seen) :
    Walk files below passed seen [] (seen, []) where
  inOrder := by
    rw [List.append_nil]
    exact h.inOrder
  subset := by
    rw [List.append_nil]
    exact h.subset
  fresh := fun _ hmem _ => .inr hmem
  diagnostics := rfl
  reached := nofun

/-- A dependency that has been seen has been passed. -/
theorem passed_of_seen {below : String → Prop} (hw : Walk files below passed seen more acc)
    (hranked : Ranked files position) (hbegun : Begun files position (position root) passed seen)
    (hmem : dependency ∈ acc.1) (hdepends : Depends files root dependency) :
    dependency ∈ passed ++ more := by
  obtain ⟨_, _, _, hkey⟩ := id hdepends
  refine (hw.fresh dependency hmem hkey).elim id fun hseen => List.mem_append_left _ ?_
  exact (hbegun.opened dependency hseen hkey).resolve_right
    (Nat.not_le.mpr (hranked.descends hdepends))

/-- A path that is not that of a checked file is only marked as seen. -/
theorem mark {below : String → Prop} (hw : Walk files below passed seen more acc)
    (hunchecked : dependency ∉ files.keys) :
    Walk files below passed seen more (dependency :: acc.1, acc.2) where
  inOrder := hw.inOrder
  subset := fun _ hmem => List.mem_cons_of_mem _ (hw.subset hmem)
  fresh := by
    intro path hmem hkey
    rcases List.mem_cons.mp hmem with rfl | hmem
    · exact absurd hkey hunchecked
    · exact hw.fresh path hmem hkey
  diagnostics := hw.diagnostics
  reached := hw.reached

/-- A file that has not been seen is passed with what is below it. -/
theorem extend {collected : List String × List Diagnostic} {deeper : List String}
    (hw : Walk files (TransGen (Depends files) root) passed seen more acc)
    (hdepends : Depends files root dependency)
    (hd : Walk files (ReflTransGen (Depends files) dependency) (passed ++ more)
      (dependency :: acc.1) (deeper ++ [dependency]) collected) :
    Walk files (TransGen (Depends files) root) passed seen (more ++ (deeper ++ [dependency]))
      (collected.1, acc.2 ++ collected.2) where
  inOrder := by
    rw [← List.append_assoc]
    exact hd.inOrder
  subset := by
    rw [← List.append_assoc]
    exact hd.subset
  fresh := by
    intro path hmem hkey
    rw [← List.append_assoc]
    refine (hd.fresh path hmem hkey).elim .inl fun hold => ?_
    rcases List.mem_cons.mp hold with rfl | hold
    · exact .inl (by simp)
    · exact (hw.fresh path hold hkey).imp_left (List.mem_append_left _)
  diagnostics := by rw [List.flatMap_append, hw.diagnostics, hd.diagnostics]
  reached := by
    intro path hmem
    rcases List.mem_append.mp hmem with hmem | hmem
    · exact hw.reached path hmem
    · exact .head' hdepends (hd.reached path hmem)

/-- The parts below a file begin where those before them ended. -/
theorem begun {below : String → Prop} (hw : Walk files below passed seen more acc)
    (hbegun : Begun files position (position root) passed seen)
    (hlt : position dependency < position root) :
    Begun files position (position dependency) (passed ++ more) (dependency :: acc.1) where
  inOrder := hw.inOrder
  subset := fun _ hmem => List.mem_cons_of_mem _ (hw.subset hmem)
  opened := by
    intro path hmem hkey
    rcases List.mem_cons.mp hmem with rfl | hmem
    · exact .inr (Nat.le_refl _)
    · refine (hw.fresh path hmem hkey).elim .inl fun hseen => ?_
      exact (hbegun.opened path hseen hkey).imp (List.mem_append_left _)
        (Nat.le_trans (Nat.le_of_lt hlt))

/-- One more dependency of the file at `root`. -/
theorem step {result : FileResult} (hwalks : Walks files position fuel)
    (hranked : Ranked files position) (hbegun : Begun files position (position root) passed seen)
    (hfuel : position root ≤ fuel) (hroot : files.get? root = some result)
    (hmem : dependency ∈ result.dependencies)
    (hw : Walk files (TransGen (Depends files) root) passed seen more acc) :
    ∃ more', Walk files (TransGen (Depends files) root) passed seen (more ++ more')
        (collectStep files fuel acc dependency) ∧
      (dependency ∈ files.keys → dependency ∈ passed ++ (more ++ more')) := by
  have hdepends (hkey : dependency ∈ files.keys) : Depends files root dependency :=
    ⟨result, hroot, hmem, hkey⟩
  obtain ⟨acc, collected⟩ := acc
  rw [collectStep]
  split
  · next hseen =>
    have hseen : dependency ∈ acc := by simpa using hseen
    refine ⟨[], by rwa [List.append_nil], fun hkey => ?_⟩
    rw [List.append_nil]
    exact hw.passed_of_seen hranked hbegun hseen (hdepends hkey)
  next hfresh =>
  have hfresh : dependency ∉ acc := by simpa using hfresh
  split
  · next hnone =>
    have hunchecked := Dict.get?_eq_none_iff.mp hnone
    refine ⟨[], ?_, fun hkey => absurd hkey hunchecked⟩
    rw [List.append_nil]
    exact hw.mark hunchecked
  next file hfile =>
  have hkey : dependency ∈ files.keys := Dict.mem_keys_iff.mpr ⟨file, hfile⟩
  have hlt := hranked.descends (hdepends hkey)
  obtain ⟨deeper, hdeeper⟩ := hwalks dependency file (passed ++ more) (dependency :: acc) hfile
    List.mem_cons_self (fun hpassed => hfresh (hw.subset hpassed)) (by omega) (hw.begun hbegun hlt)
  exact ⟨deeper ++ [dependency], hw.extend (hdepends hkey) hdeeper, fun _ => by simp⟩

/-- All dependencies of the file at `root`. -/
theorem fold {result : FileResult} {paths : List String} (hwalks : Walks files position fuel)
    (hranked : Ranked files position) (hbegun : Begun files position (position root) passed seen)
    (hfuel : position root ≤ fuel) (hroot : files.get? root = some result)
    (hpaths : paths ⊆ result.dependencies)
    (hw : Walk files (TransGen (Depends files) root) passed seen more acc) :
    ∃ more', Walk files (TransGen (Depends files) root) passed seen (more ++ more')
        (paths.foldl (collectStep files fuel) acc) ∧
      ∀ path ∈ paths, path ∈ files.keys → path ∈ passed ++ (more ++ more') := by
  induction paths generalizing acc more with
  | nil => exact ⟨[], by rwa [List.append_nil], nofun⟩
  | cons path rest ih =>
    obtain ⟨hmem, hrest⟩ := List.cons_subset.mp hpaths
    obtain ⟨one, hone, hpath⟩ := hw.step hwalks hranked hbegun hfuel hroot hmem
    obtain ⟨others, hothers, hall⟩ := ih hrest hone
    rw [List.append_assoc] at hothers hall
    refine ⟨one ++ others, hothers, fun other hother hkey => ?_⟩
    rcases List.mem_cons.mp hother with rfl | hother
    · have hfound := hpath hkey
      simp only [List.mem_append] at hfound ⊢
      tauto
    · exact hall other hother hkey

/-- The file itself comes last. -/
theorem finish {result : FileResult}
    (hw : Walk files (TransGen (Depends files) root) passed seen more acc)
    (hranked : Ranked files position) (hroot : files.get? root = some result) (hseen : root ∈ acc.1)
    (hfresh : root ∉ passed)
    (hall : ∀ path ∈ result.dependencies, path ∈ files.keys → path ∈ passed ++ more) :
    Walk files (ReflTransGen (Depends files) root) passed seen (more ++ [root])
      (acc.1, acc.2 ++ result.diagnostics) where
  inOrder := by
    rw [← List.append_assoc]
    refine .more hw.inOrder (Dict.mem_keys_iff.mpr ⟨result, hroot⟩) ?_ ?_
    · intro hmem
      refine (List.mem_append.mp hmem).elim hfresh fun hmem => ?_
      exact Nat.lt_irrefl _ (hranked.lt_of_transGen (hw.reached root hmem))
    · rintro dependency ⟨found, hfound, hdependency, hkey⟩
      rw [hroot] at hfound
      cases hfound
      exact hall dependency hdependency hkey
  subset := by
    rw [← List.append_assoc]
    exact List.append_subset.mpr ⟨hw.subset, List.cons_subset.mpr ⟨hseen, List.nil_subset _⟩⟩
  fresh := by
    intro path hmem hkey
    rw [← List.append_assoc]
    exact (hw.fresh path hmem hkey).imp_left (List.mem_append_left _)
  diagnostics := by simp [hw.diagnostics, ownDiagnostics, hroot]
  reached := by
    intro path hmem
    rcases List.mem_append.mp hmem with hmem | hmem
    · exact (hw.reached path hmem).to_reflTransGen
    · rw [List.mem_singleton.mp hmem]

end Walk

/-- The diagnostics of a file come after those of all that it depends on. The induction is on the
fuel; what a file depends on was completed earlier, so the fuel lasts. -/
theorem walks_collectWithin (hranked : Ranked files position) (fuel : Nat) :
    Walks files position fuel := by
  induction fuel with
  | zero => exact fun _ _ _ _ _ _ _ hfuel => absurd hfuel (Nat.not_lt_zero _)
  | succ fuel ih =>
    intro path result passed seen hget hseen hfresh hfuel hbegun
    obtain ⟨more, hw, hall⟩ := Walk.fold ih hranked hbegun (Nat.le_of_lt_succ hfuel) hget
      (List.Subset.refl _) (Walk.start hbegun)
    rw [List.nil_append] at hw hall
    refine ⟨more, ?_⟩
    rw [collectWithin_succ]
    have hmem : path ∈ (result.dependencies.foldl (collectStep files fuel) (seen, [])).1 := by
      have hsub : seen ⊆ (collectWithin files (fuel + 1) result seen).1 :=
        subset_collectWithin (fuel + 1) result seen
      rw [collectWithin_succ] at hsub
      exact hsub hseen
    exact hw.finish hranked hget hmem hfresh hall

/-- The diagnostics of an entry are those of all files that it reaches, in order, its own last. -/
theorem collectDiagnostics_eq (hranked : Ranked files position) {path : String} {result : FileResult}
    (hget : files.get? path = some result) :
    ∃ order, collectDiagnostics files path result = (order ++ [path]).flatMap (ownDiagnostics files) ∧
      InOrder files (order ++ [path]) ∧
      ∀ reached, reached ∈ order ++ [path] ↔ ReflTransGen (Depends files) path reached := by
  have hkey : path ∈ files.keys := Dict.mem_keys_iff.mpr ⟨result, hget⟩
  have hbegun : Begun files position (position path) [] [path] := by
    refine ⟨.none, List.nil_subset _, fun other hmem _ => .inr ?_⟩
    rw [List.mem_singleton.mp hmem]
  obtain ⟨order, hw⟩ := walks_collectWithin hranked (files.size + 1) path result [] [path] hget
    List.mem_cons_self List.not_mem_nil (Nat.lt_succ_of_lt (hranked.bounded path hkey)) hbegun
  have horder := hw.inOrder
  rw [List.nil_append] at horder
  refine ⟨order, hw.diagnostics, horder, fun reached => ⟨hw.reached reached, ?_⟩⟩
  exact horder.mem_of_reaches (by simp)

/-- The result of a compile that succeeds, whatever has been compiled before and whether it succeeded. The
entry has been checked, and so have all files that it reaches. The diagnostics are first those of the
globals file, then the own ones of all these files, each file once and after all checked files that it
depends on, the entry last. -/
theorem compile_diagnostics_in_order (host : Host) (options : Options) (hapart : host.Apart options)
    {start s : Session} (hstart : Session.start host options = .ok start) (earlier : List String)
    (path : String) {result : CompileResult}
    (hrun : (compile host options path).run (start.after host options earlier) = (.ok result, s)) :
    ∃ order entry, s.files.get? (Path.normalize path) = some entry ∧
      result.fileName = Path.normalize path ∧ result.exports = entry.exports ∧
      result.diagnostics = start.ofGlobalsFile options ++
        (order ++ [Path.normalize path]).flatMap (ownDiagnostics s.files) ∧
      (∀ file ∈ order ++ [Path.normalize path], ∃ checked, s.files.get? file = some checked ∧
        Succeeded host options file checked) ∧
      (order ++ [Path.normalize path]).Nodup ∧
      (∀ file, file ∈ order ++ [Path.normalize path] ↔
        ReflTransGen (Depends s.files) (Path.normalize path) file) ∧
      ∀ before file after, order ++ [Path.normalize path] = before ++ file :: after →
        ∀ dependency, Depends s.files file dependency → dependency ∈ before := by
  obtain ⟨hidle, hreported, -⟩ := Session.started_start hstart
  have hearlier : start.Advances host options (start.after host options earlier) :=
    Session.advances_after earlier hidle.compiling
  have hcompile := advancing_compile host options path (hearlier.idle hidle).compiling
  have hadvances := hcompile.keeps
  obtain ⟨file, hfile, hresult⟩ := hcompile.result result (by rw [hrun])
  rw [hrun] at hadvances hfile hresult
  have hgenuine := (hadvances.idle (hearlier.idle hidle)).genuine
  obtain ⟨order, hdiagnostics, horder, hreached⟩ :=
    collectDiagnostics_eq (ranked_of_completed hgenuine.files hapart) hfile
  have hchecked : ∀ reached ∈ order ++ [Path.normalize path], ∃ checked,
      s.files.get? reached = some checked ∧ Succeeded host options reached checked := by
    intro reached hmem
    obtain ⟨checked, hget⟩ := Dict.mem_keys_iff.mp (horder.checked hmem)
    exact ⟨checked, hget, hgenuine.succeeded reached checked hget⟩
  rw [hresult]
  refine ⟨order, file, hfile, rfl, rfl, ?_, hchecked, horder.nodup, hreached,
    fun _ _ _ hsplit _ => horder.earlier hsplit⟩
  rw [hadvances.globalDiagnostics, hearlier.globalDiagnostics, hreported, hdiagnostics]

/-- A source that requires other ones and uses a name that is not there. -/
def Host.requiring (path : String) (requests : List String) : Script.Source :=
  { path
    text := ""
    program := Script.Build.program (Script.Build.expression (Script.Build.ident path) ::
      requests.map fun request => Script.Build.expression
        (Script.Build.call (Script.Build.ident "require") [Script.Build.string request])) }

/-- The entry requires two sources, of which the first requires the second, and that one the entry. -/
def Host.ring : Host :=
  (({} : Host).addSource (requiring "/app/main.js" ["./left", "./right"]))
    |>.addSource (requiring "/app/left.js" ["./right"])
    |>.addSource (requiring "/app/right.js" ["./main"])

theorem Host.apart_of_no_definitions (host : Host) {options : Options}
    (h : options.definitions = none) : host.Apart options := by
  rintro path ⟨_, name, file, hfile, _⟩
  simp [Options.definitionPath?, h] at hfile

/-- The session in which the sources of the ring are compiled. -/
def Session.ofRing : Session :=
  { table := (Builtins.globals.run Types.Table.initial).2
    globals := (Builtins.globals.run Types.Table.initial).1 }

theorem Session.start_ring : Session.start .ring {} = .ok Session.ofRing := rfl

theorem Session.ofRing_eq :
    Session.ofRing = { table := Builtins.table, globals := Builtins.bindings } := by
  rw [Session.ofRing, Builtins.globals_eq]

/-- The ring is compiled from its entry after a compile that fails and one of another source. -/
theorem compile_ring : ∃ result s, (compile .ring {} "/app/main.js").run
    (Session.ofRing.after .ring {} ["/app/missing.js", "/app/right.js"]) = (.ok result, s) := by
  have hok : ((compile .ring {} "/app/main.js").run
      (Session.ofRing.after .ring {} ["/app/missing.js", "/app/right.js"])).1.isOk := by
    rw [Session.ofRing_eq]
    decide +kernel
  rcases hrun : (compile .ring {} "/app/main.js").run
    (Session.ofRing.after .ring {} ["/app/missing.js", "/app/right.js"]) with ⟨e | result, s⟩
  · rw [hrun] at hok
    cases hok
  · exact ⟨result, s, rfl⟩

theorem compile_diagnostics_in_order_ring :
    ∃ result s, (compile .ring {} "/app/main.js").run
        (Session.ofRing.after .ring {} ["/app/missing.js", "/app/right.js"]) = (.ok result, s) ∧
      ∃ order entry, s.files.get? "/app/main.js" = some entry ∧
        result.fileName = "/app/main.js" ∧ result.exports = entry.exports ∧
        result.diagnostics = (order ++ ["/app/main.js"]).flatMap (ownDiagnostics s.files) ∧
        (∀ file ∈ order ++ ["/app/main.js"], ∃ checked, s.files.get? file = some checked ∧
          Succeeded .ring {} file checked) ∧
        (order ++ ["/app/main.js"]).Nodup ∧
        (∀ file, file ∈ order ++ ["/app/main.js"] ↔
          ReflTransGen (Depends s.files) "/app/main.js" file) ∧
        ∀ before file after, order ++ ["/app/main.js"] = before ++ file :: after →
          ∀ dependency, Depends s.files file dependency → dependency ∈ before := by
  obtain ⟨result, s, hrun⟩ := compile_ring
  have hnormal : Path.normalize "/app/main.js" = "/app/main.js" := by decide +kernel
  have hquiet : Session.ofRing.ofGlobalsFile {} = [] := rfl
  have hdiagnostics := compile_diagnostics_in_order .ring {} (Host.apart_of_no_definitions _ rfl)
    Session.start_ring ["/app/missing.js", "/app/right.js"] "/app/main.js" hrun
  rw [hnormal, hquiet] at hdiagnostics
  exact ⟨result, s, hrun, hdiagnostics⟩

end HeaderCheck.Project
