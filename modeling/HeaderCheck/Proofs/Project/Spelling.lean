import HeaderCheck.Project.Compile
import HeaderCheck.Proofs.Text.Path

/-!
# HeaderCheck.Proofs.Project.Spelling

However the path of a file is spelled, its requests lead to the same files.

* `Path.Normal`: a path without detours. Normalizing leads to these and leaves them as they are.
* `Path.resolve_eq`: a request goes on where the directory of the file ends.
* `paths_canonical`: what a file requires does not depend on how its path is spelled, if that ends
  with the name of a file.
-/

namespace HeaderCheck.Text

variable {sep : Char}

/-- What is joined and goes on after a separator is read back. -/
theorem pieces_join_append {parts : List (List Char)} (hne : parts ≠ [])
    (h : ∀ part ∈ parts, sep ∉ part) (rest : List Char) :
    pieces sep (join [sep] parts ++ sep :: rest) = parts ++ pieces sep rest := by
  induction parts with
  | nil => exact absurd rfl hne
  | cons part more ih =>
    have hpart := h part List.mem_cons_self
    cases more with
    | nil => exact pieces_append hpart rest
    | cons next more =>
      rw [join, List.append_assoc, List.append_assoc, List.singleton_append, pieces_append hpart,
        ih (List.cons_ne_nil _ _) fun other hmem => h other (List.mem_cons_of_mem _ hmem)]
      · rfl
      · exact List.cons_ne_nil _ _

end HeaderCheck.Text

namespace HeaderCheck.Path

open HeaderCheck.Text

variable {absolute : Bool} {kept : List (List Char)}

/-! ## Normal paths -/

/-- The segment that leads to the directory above. -/
def upward : List Char :=
  ['.', '.']

/-- A path without the separator that an absolute one begins with. -/
def body (path : String) : List Char :=
  if isAbsolute path then path.toList.tail else path.toList

/-- The segments of a path. A path that is empty or only a separator has none. -/
def segmentsOf (path : String) : List (List Char) :=
  if body path = [] then [] else pieces slash (body path)

/-- A path without detours: it goes up only where it begins, and only if it is relative. -/
structure Normal (path : String) : Prop where
  proper : ∀ segment ∈ segmentsOf path, segment ≠ [] ∧ segment ≠ ['.']
  climbs : ∃ levels names, segmentsOf path = List.replicate levels upward ++ names ∧ upward ∉ names ∧
    (isAbsolute path = true → levels = 0)

/-- The path with the kept segments. -/
def written (absolute : Bool) (kept : List (List Char)) : String :=
  String.ofList (if absolute then slash :: join [slash] kept.reverse else join [slash] kept.reverse)

/-- What is kept of a list of segments, last one first. -/
def keptOf (absolute : Bool) (parts : List (List Char)) : List (List Char) :=
  parts.foldl (pushSegment absolute) []

theorem normalize_eq_written (path : String) :
    normalize path = written (isAbsolute path) (keptOf (isAbsolute path) (pieces slash path.toList)) :=
  rfl

theorem kept_keptOf {parts : List (List Char)} (h : ∀ part ∈ parts, slash ∉ part) :
    Kept absolute (keptOf absolute parts) :=
  Kept.nil.foldl h

theorem isAbsolute_written (h : Kept absolute kept) : isAbsolute (written absolute kept) = absolute := by
  have hhead := h.head_join
  rw [isAbsolute, written, String.toList_ofList]
  cases absolute with
  | true => rfl
  | false =>
    cases hj : join [slash] kept.reverse with
    | nil => rfl
    | cons c cs =>
      rw [hj] at hhead
      simpa using hhead c rfl

theorem join_kept_eq_nil_iff (h : Kept absolute kept) : join [slash] kept.reverse = [] ↔ kept = [] := by
  refine ⟨fun hjoin => ?_, fun hnil => by rw [hnil]; rfl⟩
  cases hk : kept.reverse with
  | nil => exact List.reverse_eq_nil_iff.mp hk
  | cons first rest =>
    have hfirst : first ≠ [] := h.ne_nil first (List.mem_reverse.mp (by simp [hk]))
    rw [hk] at hjoin
    cases rest with
    | nil => exact absurd hjoin hfirst
    | cons next rest => simp [join] at hjoin

/-- Kept segments are the segments of the path that is made of them. -/
theorem segmentsOf_written (h : Kept absolute kept) :
    segmentsOf (written absolute kept) = kept.reverse := by
  have hbody : body (written absolute kept) = join [slash] kept.reverse := by
    rw [body, isAbsolute_written h]
    cases absolute <;> simp [written]
  simp only [segmentsOf, hbody, join_kept_eq_nil_iff h]
  split
  · next hnil => rw [hnil, List.reverse_nil]
  · next hne =>
    exact pieces_join (by simpa using hne) fun part hmem => h.not_mem part (List.mem_reverse.mp hmem)

theorem Kept.ne_dot (h : Kept absolute kept) : ∀ segment ∈ kept, segment ≠ ['.'] :=
  h.forall_mem (by simp) fun _ _ hdot _ => hdot

/-- Before a segment that goes up, all do. -/
theorem Kept.eq_up (h : Kept absolute (upward :: kept)) : ∀ segment ∈ kept, segment = upward := by
  induction kept with
  | nil => simp
  | cons last rest ih =>
    cases h with
    | down _ _ hup => exact absurd rfl hup
    | up _ hlast h =>
      obtain rfl : last = upward := hlast last rfl
      intro segment hmem
      rcases List.mem_cons.mp hmem with rfl | hmem
      · rfl
      · exact ih h segment hmem

theorem Kept.climbs (h : Kept absolute kept) :
    ∃ levels names, kept.reverse = List.replicate levels upward ++ names ∧ upward ∉ names ∧
      (absolute = true → levels = 0) := by
  induction h with
  | nil => exact ⟨0, [], rfl, by simp, fun _ => rfl⟩
  | @up rest hrelative hlast h ih =>
    have hall : ∀ segment ∈ (upward :: rest).reverse, segment = upward := by
      intro segment hmem
      rcases List.mem_cons.mp (List.mem_reverse.mp hmem) with rfl | hmem
      · rfl
      · exact (Kept.up hrelative hlast h).eq_up segment hmem
    refine ⟨rest.length + 1, [], ?_, by simp, fun habsolute => by simp [hrelative] at habsolute⟩
    rw [List.append_nil]
    exact List.eq_replicate_iff.mpr ⟨by simp, hall⟩
  | @down segment rest _ _ hup _ _ ih =>
    obtain ⟨levels, names, hrest, hnames, hlevels⟩ := ih
    refine ⟨levels, names ++ [segment], by simp [hrest], ?_, hlevels⟩
    rw [List.mem_append, List.mem_singleton, not_or]
    exact ⟨hnames, Ne.symm hup⟩

/-- Segments that go up, if there may be any, and then proper ones are all kept. -/
theorem kept_append_replicate {names : List (List Char)} {levels : Nat}
    (hlevels : absolute = true → levels = 0)
    (h : ∀ segment ∈ names, segment ≠ [] ∧ segment ≠ ['.'] ∧ segment ≠ upward ∧ slash ∉ segment) :
    Kept absolute (names ++ List.replicate levels upward) := by
  induction names with
  | nil =>
    cases absolute with
    | true =>
      rw [hlevels rfl]
      exact .nil
    | false =>
      induction levels with
      | zero => exact .nil
      | succ levels ih =>
        refine .up rfl (fun last hlast => ?_) (ih nofun)
        exact List.eq_of_mem_replicate (List.mem_of_mem_head? hlast)
  | cons segment rest ih =>
    obtain ⟨hne, hdot, hup, hslash⟩ := h segment List.mem_cons_self
    exact .down hne hdot hup hslash (ih fun other hmem => h other (List.mem_cons_of_mem _ hmem))

theorem normal_written (h : Kept absolute kept) : Normal (written absolute kept) where
  proper := by
    intro segment hmem
    rw [segmentsOf_written h, List.mem_reverse] at hmem
    exact ⟨h.ne_nil segment hmem, h.ne_dot segment hmem⟩
  climbs := by
    rw [segmentsOf_written h, isAbsolute_written h]
    exact h.climbs

theorem normal_normalize (path : String) : Normal (normalize path) :=
  normal_written (kept_keptOf fun _ => not_mem_of_mem_pieces)

theorem isAbsolute_normalize (path : String) : isAbsolute (normalize path) = isAbsolute path :=
  isAbsolute_written (kept_keptOf fun _ => not_mem_of_mem_pieces)

theorem slash_not_mem_segmentsOf {path : String} {segment : List Char}
    (h : segment ∈ segmentsOf path) : slash ∉ segment := by
  rw [segmentsOf] at h
  split at h
  · exact absurd h List.not_mem_nil
  · exact not_mem_of_mem_pieces h

/-- A path is made of its segments. -/
theorem written_segmentsOf (path : String) :
    written (isAbsolute path) (segmentsOf path).reverse = path := by
  have hjoin : join [slash] (segmentsOf path) = body path := by
    rw [segmentsOf]
    split
    · next hnil => rw [hnil]; rfl
    · exact join_pieces slash (body path)
  rw [← String.toList_inj, written, List.reverse_reverse, String.toList_ofList, hjoin, body]
  cases habsolute : isAbsolute path with
  | false => rfl
  | true =>
    rw [isAbsolute] at habsolute
    split at habsolute
    · next c cs hpath =>
      rw [hpath, beq_iff_eq.mp habsolute]
      rfl
    · cases habsolute

theorem normalize_eq_self_iff (path : String) : normalize path = path ↔ Normal path := by
  refine ⟨fun h => h ▸ normal_normalize path, fun h => ?_⟩
  obtain ⟨levels, names, hsegments, hnames, hlevels⟩ := h.climbs
  have hkept : Kept (isAbsolute path) (segmentsOf path).reverse := by
    rw [hsegments, List.reverse_append, List.reverse_replicate]
    refine kept_append_replicate hlevels fun segment hmem => ?_
    have hmem' : segment ∈ segmentsOf path := by
      rw [hsegments]
      exact List.mem_append_right _ (List.mem_reverse.mp hmem)
    obtain ⟨hne, hdot⟩ := h.proper segment hmem'
    refine ⟨hne, hdot, ?_, slash_not_mem_segmentsOf hmem'⟩
    rintro rfl
    exact hnames (List.mem_reverse.mp hmem)
  have hnormal := hkept.normalize_eq
  rw [← written, written_segmentsOf] at hnormal
  exact hnormal

/-! ## Requests -/

theorem isAbsolute_iff_of_pieces {path : String} {part : List Char} {more : List (List Char)}
    (h : pieces slash path.toList = part :: more) :
    isAbsolute path = true ↔ part = [] ∧ more ≠ [] := by
  rw [isAbsolute]
  cases hpath : path.toList with
  | nil =>
    rw [hpath] at h
    cases h
    simp
  | cons c cs =>
    rw [hpath, pieces] at h
    split at h
    · next hslash =>
      obtain ⟨rfl, rfl⟩ := List.cons.inj h
      simp [hslash, pieces_ne_nil]
    · next hother =>
      have hpart : part ≠ [] := by
        split at h <;> rw [← (List.cons.inj h).1] <;> exact List.cons_ne_nil _ _
      simp [hother, hpart]

/-- A relative request goes on where the directory of the file ends. -/
theorem resolve_eq {request : String} (h : isAbsolute request = false) (file : String) :
    resolve file request = written (isAbsolute file)
      ((pieces slash request.toList).foldl (pushSegment (isAbsolute file))
        (keptOf (isAbsolute file) (pieces slash file.toList).dropLast)) := by
  have hnormalize : resolve file request =
      normalize (String.ofList ((directory? file).getD ['.'] ++ slash :: request.toList)) := by
    rw [resolve, if_neg (by simp [h])]
  have hlast := List.dropLast_append_getLast (pieces_ne_nil slash file.toList)
  rw [hnormalize, normalize_eq_written, String.toList_ofList]
  cases hdirectory : (pieces slash file.toList).dropLast with
  | nil =>
    -- a file without a directory is looked up from `.`, which adds no segment
    rw [hdirectory, List.nil_append] at hlast
    have hrelative : isAbsolute file = false := by
      simpa using isAbsolute_iff_of_pieces hlast.symm
    have hdot : pieces slash ('.' :: slash :: request.toList) = ['.'] :: pieces slash request.toList :=
      @pieces_append slash ['.'] (by decide) _
    have hnone : directory? file = none := by rw [directory?, hdirectory]
    have habsolute : isAbsolute (String.ofList ('.' :: slash :: request.toList)) = false := by
      rw [isAbsolute, String.toList_ofList]
      rfl
    rw [hnone, Option.getD_none, List.singleton_append, habsolute, hdot, hrelative]
    rfl
  | cons part more =>
    rw [hdirectory, List.cons_append] at hlast
    have hparts : ∀ other ∈ part :: more, slash ∉ other := by
      intro other hmem
      rw [← hdirectory] at hmem
      exact not_mem_of_mem_pieces (List.dropLast_subset _ hmem)
    have hsome : directory? file = some (join [slash] (part :: more)) := by
      rw [directory?, hdirectory]
    have hpieces := pieces_join_append (List.cons_ne_nil part more) hparts request.toList
    have habsolute : isAbsolute (String.ofList (join [slash] (part :: more) ++ slash ::
        request.toList)) = isAbsolute file := by
      rw [Bool.eq_iff_iff, isAbsolute_iff_of_pieces hlast.symm,
        isAbsolute_iff_of_pieces (by rw [String.toList_ofList, hpieces]; rfl)]
      simp [pieces_ne_nil]
    rw [hsome, Option.getD_some, habsolute, hpieces, keptOf, List.foldl_append]
    rfl

theorem pieces_written (h : Kept absolute kept) (hne : kept ≠ []) :
    pieces slash (written absolute kept).toList =
      (if absolute then [[]] else []) ++ kept.reverse := by
  have hjoin : pieces slash (join [slash] kept.reverse) = kept.reverse :=
    pieces_join (by simpa using hne) fun part hmem => h.not_mem part (List.mem_reverse.mp hmem)
  rw [written, String.toList_ofList]
  cases absolute with
  | true => rw [if_pos rfl, if_pos rfl, pieces, if_pos rfl, hjoin, List.singleton_append]
  | false => exact hjoin

/-- What follows the last separator of a path. -/
def lastSegment (path : String) : List Char :=
  (pieces slash path.toList).getLastD []

/-- Requests of a file do not depend on how its path is spelled. -/
theorem resolve_normalize {file : String} (h : lastSegment file ∉ [[], ['.'], upward])
    (request : String) : resolve (normalize file) request = resolve file request := by
  cases hrequest : isAbsolute request with
  | true => rw [resolve, resolve, if_pos hrequest, if_pos hrequest]
  | false =>
    rw [resolve_eq hrequest, resolve_eq hrequest, isAbsolute_normalize]
    suffices hdirectory : keptOf (isAbsolute file) (pieces slash (normalize file).toList).dropLast =
        keptOf (isAbsolute file) (pieces slash file.toList).dropLast by rw [hdirectory]
    generalize hdir : (pieces slash file.toList).dropLast = dir
    have hpieces : pieces slash file.toList = dir ++ [lastSegment file] := by
      rw [lastSegment, List.getLastD_eq_getLast?, List.getLast?_eq_some_getLast (pieces_ne_nil _ _),
        Option.getD_some, ← hdir, List.dropLast_append_getLast]
    have hkept : Kept (isAbsolute file) (keptOf (isAbsolute file) dir) := by
      refine kept_keptOf fun part hmem => @not_mem_of_mem_pieces slash file.toList part ?_
      rw [hpieces]
      exact List.mem_append_left _ hmem
    -- the name of the file is kept behind its directory
    have hname : keptOf (isAbsolute file) (pieces slash file.toList) =
        lastSegment file :: keptOf (isAbsolute file) dir := by
      simp only [List.mem_cons, List.not_mem_nil, or_false, not_or] at h
      rw [hpieces, keptOf, List.foldl_append]
      simp [pushSegment, h.1, h.2.1, show lastSegment file ≠ ['.', '.'] from h.2.2, keptOf]
    have hkept' : Kept (isAbsolute file) (lastSegment file :: keptOf (isAbsolute file) dir) :=
      hname ▸ kept_keptOf fun _ => not_mem_of_mem_pieces
    have hroot : (if isAbsolute file then [[]] else []).foldl (pushSegment (isAbsolute file)) [] =
        [] := by
      cases isAbsolute file <;> rfl
    rw [normalize_eq_written, hname, pieces_written hkept' (List.cons_ne_nil _ _), List.reverse_cons,
      ← List.append_assoc, List.dropLast_concat, keptOf, List.foldl_append, hroot]
    exact List.reverse_injective hkept.segments_reverse

end HeaderCheck.Path

namespace HeaderCheck.Project

open HeaderCheck.Path

/-! ## Files of a project -/

/-- (a) A normalized path is normal and absolute if and only if the path is; normalizing it again
leaves it as it is, as it does normal paths only. (b) Where the path of a file ends with a name, its
requests lead to the same paths and give the same modules as with the normalized path of the file;
and an entry is compiled with the same outcome however its path is spelled. -/
theorem paths_canonical :
    (∀ path, Normal (normalize path) ∧ isAbsolute (normalize path) = isAbsolute path ∧
      normalize (normalize path) = normalize path ∧ (normalize path = path ↔ Normal path)) ∧
    (∀ file, lastSegment file ∉ [[], ['.'], upward] → ∀ request,
      resolve file request = resolve (normalize file) request ∧
      ∀ host options check, requireModule host options check file request =
        requireModule host options check (normalize file) request) ∧
    ∀ host options path, compile host options path = compile host options (normalize path) := by
  refine ⟨fun path => ⟨normal_normalize path, isAbsolute_normalize path, normalize_normalize path,
    normalize_eq_self_iff path⟩, fun file hname request => ?_, fun host options path => ?_⟩
  · have hresolve := resolve_normalize hname request
    exact ⟨hresolve.symm, fun host options check => by rw [requireModule, requireModule, hresolve]⟩
  · rw [compile, compile, normalize_normalize]

/-- The file `/app/./lib/../main.js` requires what `/app/main.js` does. -/
theorem paths_canonical_detour :
    lastSegment "/app/./lib/../main.js" ∉ [[], ['.'], upward] ∧
      normalize "/app/./lib/../main.js" = "/app/main.js" ∧ Normal "/app/main.js" ∧
      resolve "/app/./lib/../main.js" "../foo" = resolve "/app/main.js" "../foo" ∧
      resolve "/app/main.js" "../foo" = "/foo" := by
  have hname : lastSegment "/app/./lib/../main.js" ∉ [[], ['.'], upward] := by decide +kernel
  have hnormalize : normalize "/app/./lib/../main.js" = "/app/main.js" := by decide +kernel
  have hnormal := (paths_canonical.1 "/app/./lib/../main.js").1
  have hresolve := (paths_canonical.2.1 "/app/./lib/../main.js" hname "../foo").1
  rw [hnormalize] at hnormal hresolve
  exact ⟨hname, hnormalize, hnormal, hresolve, by decide +kernel⟩

end HeaderCheck.Project
