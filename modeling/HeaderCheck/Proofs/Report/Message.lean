import HeaderCheck.Report.Diagnostic
import Mathlib.Data.List.Infix
import Mathlib.Data.List.Nodup

/-!
# HeaderCheck.Proofs.Report.Message

How the message of a diagnostic comes from the template of its kind.

* `Template.render`: a template with a value in each hole.
* `Template.fill_render`: filling a template fills each hole on its own, as the texts between two
  holes keep a placeholder from reaching over them.
* `Diagnostic.onePass`: the message that is meant, each hole with the value of its field.
* `message_filled`: the message there is. What comes from a field is searched for the fields after
  it, so it is the one that is meant if no value holds the placeholder of a later field.
-/

namespace HeaderCheck

namespace Template

variable {pattern replacement : List Char} {name value : String} {fields : List (String × String)}

/-! ## Replacing -/

theorem replaceFrom_length (front back : List Char) :
    replaceFrom pattern replacement front.length (front ++ back) =
      replaceAll pattern replacement back := by
  induction front with
  | nil => rfl
  | cons c front ih => exact ih

/-- An occurrence at the beginning is replaced. -/
theorem replaceAll_pattern_append (h : pattern ≠ []) (text : List Char) :
    replaceAll pattern replacement (pattern ++ text) =
      replacement ++ replaceAll pattern replacement text := by
  cases pattern with
  | nil => exact absurd rfl h
  | cons c rest =>
    have hbegins : (c :: rest).isPrefixOf (c :: (rest ++ text)) = true :=
      List.isPrefixOf_iff_prefix.mpr (List.prefix_append _ _)
    rw [replaceAll, List.cons_append, replaceFrom, if_pos hbegins, List.length_cons,
      Nat.add_sub_cancel, replaceFrom_length]

theorem replaceAll_cons {c : Char} {text : List Char} (h : ¬pattern <+: c :: text) :
    replaceAll pattern replacement (c :: text) = c :: replaceAll pattern replacement text := by
  rw [replaceAll, replaceFrom, if_neg (by rwa [ List.isPrefixOf_iff_prefix])]
  rfl

/-- A text without occurrences stays as it is. -/
theorem replaceAll_eq_self {text : List Char} (h : ¬pattern <:+: text) :
    replaceAll pattern replacement text = text := by
  induction text with
  | nil => rfl
  | cons c text ih =>
    rw [replaceAll_cons fun hbegins => h hbegins.isInfix,
      ih fun hoccurs => h (hoccurs.trans (List.suffix_cons c text).isInfix)]

/-- Two texts are searched one by one if no occurrence reaches from the first into the second. -/
theorem replaceAll_append (hne : pattern ≠ []) {text more : List Char}
    (h : ∀ front back, pattern = front ++ back → front ≠ [] → back ≠ [] → ¬back <+: more) :
    replaceAll pattern replacement (text ++ more) =
      replaceAll pattern replacement text ++ replaceAll pattern replacement more := by
  induction hlength : text.length using Nat.strong_induction_on generalizing text with
  | _ n ih =>
  subst hlength
  by_cases hbegins : pattern <+: text
  · obtain ⟨rest, rfl⟩ := hbegins
    have hless : rest.length < (pattern ++ rest).length := by
      have := List.length_pos_iff.mpr hne
      rw [List.length_append]
      omega
    rw [List.append_assoc, replaceAll_pattern_append hne, replaceAll_pattern_append hne,
      ih _ hless rfl, List.append_assoc]
  · cases text with
    | nil => rfl
    | cons c rest =>
      have hstraddle : ¬pattern <+: c :: (rest ++ more) := by
        rintro ⟨after, hafter⟩
        rcases List.append_eq_append_iff.mp (hafter.trans (List.cons_append ..).symm) with
          ⟨left, hleft, -⟩ | ⟨back, hback, hmore⟩
        · exact hbegins ⟨left, hleft.symm⟩
        · by_cases hnil : back = []
          · rw [hnil, List.append_nil] at hback
            exact hbegins (hback ▸ List.prefix_refl _)
          · exact h _ back hback (List.cons_ne_nil _ _) hnil ⟨after, hmore.symm⟩
      rw [List.cons_append, replaceAll_cons hstraddle, replaceAll_cons hbegins,
        ih rest.length (Nat.lt_succ_self _) rfl, List.cons_append]

/-! ## Names and texts -/

/-- A character of a name: no brace and no blank. -/
def ofName (c : Char) : Bool :=
  c != '\x7b' && c != '\x7d' && c != ' '

def plainName (name : String) : Bool :=
  name.toList.all ofName

/-- Whether a text begins with the rest of a placeholder. -/
def closes (text : List Char) : Bool :=
  (text.dropWhile ofName).head? == some '\x7d'

theorem closes_of_begins {rest text : List Char} (hrest : ∀ c ∈ rest, ofName c = true)
    (h : rest ++ ['\x7d'] <+: text) : closes text = true := by
  obtain ⟨after, rfl⟩ := h
  rw [closes, List.append_assoc, List.dropWhile_append_of_pos hrest]
  rfl

/-- A text without closing braces that is followed by another one closes a placeholder only if it
has no blank and the other one does. -/
theorem closes_append {text more : List Char} (htext : '\x7d' ∉ text)
    (h : closes (text ++ more) = true) : ' ' ∉ text ∧ closes more = true := by
  induction text with
  | nil => exact ⟨List.not_mem_nil, h⟩
  | cons c rest ih =>
    rw [List.mem_cons, not_or] at htext
    rw [closes, List.cons_append, List.dropWhile_cons] at h
    split at h
    · next hname =>
      obtain ⟨hblank, hmore⟩ := ih htext.2 h
      refine ⟨?_, hmore⟩
      rw [List.mem_cons, not_or]
      refine ⟨?_, hblank⟩
      rintro rfl
      cases hname
    · exact absurd (Option.some.inj (beq_iff_eq.mp h)).symm htext.1

theorem placeholder_ne_nil (name : String) : placeholder name ≠ [] :=
  List.cons_ne_nil _ _

/-- Before a text that closes no placeholder, a text is searched on its own. -/
theorem replaceAll_append_of_not_closes (hname : plainName name = true) {text more : List Char}
    (h : closes more = false) :
    replaceAll (placeholder name) replacement (text ++ more) =
      replaceAll (placeholder name) replacement text ++
        replaceAll (placeholder name) replacement more := by
  refine replaceAll_append (placeholder_ne_nil name) fun front back hsplit hfront hback hbegins => ?_
  obtain ⟨c, front, rfl⟩ := List.exists_cons_of_ne_nil hfront
  obtain ⟨-, hsplit⟩ := List.cons.inj hsplit
  obtain ⟨rest, last, rfl⟩ := (List.eq_nil_or_concat back).resolve_left hback
  change name.toList ++ ['\x7d'] = front ++ rest.concat last at hsplit
  rw [List.concat_eq_append, ← List.append_assoc] at hsplit
  obtain ⟨hchars, hlast⟩ := List.append_inj' hsplit rfl
  obtain rfl := List.singleton_inj.mp hlast
  have hrest : ∀ c ∈ rest, ofName c = true := fun c hmem =>
    List.all_eq_true.mp hname c (hchars ▸ List.mem_append_right _ hmem)
  rw [List.concat_eq_append] at hbegins
  exact Bool.false_ne_true (h.symm.trans (closes_of_begins hrest hbegins))

/-- A text without opening braces is no part of a placeholder that comes after it begins. -/
theorem replaceAll_text_append {text : List Char} (h : '\x7b' ∉ text) (more : List Char) :
    replaceAll (placeholder name) replacement (text ++ more) =
      text ++ replaceAll (placeholder name) replacement more := by
  induction text with
  | nil => rfl
  | cons c rest ih =>
    rw [List.mem_cons, not_or] at h
    have hbegins : ¬placeholder name <+: c :: (rest ++ more) := by
      rw [placeholder, List.cons_append, List.cons_prefix_cons]
      exact fun hboth => h.1 hboth.1
    rw [List.cons_append, replaceAll_cons hbegins, ih h.2, List.cons_append]

theorem not_mem_of_plainName (h : plainName name = true) :
    '\x7b' ∉ name.toList ∧ '\x7d' ∉ name.toList :=
  ⟨fun hmem => Bool.false_ne_true (List.all_eq_true.mp h _ hmem),
    fun hmem => Bool.false_ne_true (List.all_eq_true.mp h _ hmem)⟩

/-- A placeholder is replaced if it is that of the name. -/
theorem replaceAll_placeholder {other : String} (hother : plainName other = true) :
    replaceAll (placeholder name) replacement (placeholder other) =
      if name = other then replacement else placeholder other := by
  split
  · next heq =>
    subst heq
    have hwhole := @replaceAll_pattern_append _ replacement (placeholder_ne_nil name) []
    simpa [replaceAll, replaceFrom] using hwhole
  · next hne =>
    refine replaceAll_eq_self fun hoccurs => hne ?_
    rcases List.infix_cons_iff.mp hoccurs with ⟨after, hafter⟩ | hlater
    · -- braces end names, so the two end together
      have hnames : other.toList ++ '\x7d' :: [] = name.toList ++ '\x7d' :: after := by
        have htails := (List.cons.inj hafter).2
        change name.toList ++ ['\x7d'] ++ after = other.toList ++ ['\x7d'] at htails
        rw [← htails, List.append_assoc, List.singleton_append]
      have hsame := ((List.append_cons_inj_of_notMem (not_mem_of_plainName hother).2
        List.not_mem_nil).mp hnames).1
      exact String.toList_inj.mp hsame.symm
    · have hbrace := hlater.subset (List.mem_cons_self ..)
      rcases List.mem_append.mp hbrace with hbrace | hbrace
      · exact absurd hbrace (not_mem_of_plainName hother).1
      · exact absurd (List.mem_singleton.mp hbrace) (by decide)

/-! ## Rendering -/

/-- The template as text, with a value in the place of each hole. -/
def render (value : String → String) : Template → String
  | [] => ""
  | .text text :: rest => text ++ render value rest
  | .hole name :: rest => value name ++ render value rest

/-- Whether no placeholder that is begun before the template ends in it, whatever its holes hold. -/
def standsApart : Template → Bool
  | [] => true
  | .text text :: rest => text.toList.contains ' ' || standsApart rest
  | .hole _ :: _ => false

/-- Whether texts have no braces, holes have names, and a blank stands between two holes. -/
def spaced : Template → Bool
  | [] => true
  | .text text :: rest =>
    !text.toList.contains '\x7b' && !text.toList.contains '\x7d' && spaced rest
  | .hole name :: rest => plainName name && standsApart rest && spaced rest

attribute [local simp] render standsApart spaced

theorem spaced_text_iff {text : String} {rest : Template} : spaced (.text text :: rest) = true ↔
    '\x7b' ∉ text.toList ∧ '\x7d' ∉ text.toList ∧ spaced rest = true := by
  simp [and_assoc]

theorem spaced_hole_iff {rest : Template} : spaced (.hole name :: rest) = true ↔
    plainName name = true ∧ standsApart rest = true ∧ spaced rest = true := by
  simp [and_assoc]

theorem plainName_of_hole {template : Template} (h : template.spaced = true)
    (hhole : .hole name ∈ template) : plainName name = true := by
  induction template with
  | nil => exact absurd hhole List.not_mem_nil
  | cons part rest ih =>
    cases part with
    | text text => exact ih (spaced_text_iff.mp h).2.2 (by simpa using hhole)
    | hole hole =>
      obtain ⟨hname, -, hrest⟩ := spaced_hole_iff.mp h
      rcases List.mem_cons.mp hhole with heq | hhole
      · cases heq
        exact hname
      · exact ih hrest hhole

theorem render_congr {template : Template} {content content' : String → String}
    (h : ∀ name, .hole name ∈ template → content name = content' name) :
    template.render content = template.render content' := by
  induction template with
  | nil => rfl
  | cons part rest ih =>
    have hrest := ih fun name hmem => h name (List.mem_cons_of_mem _ hmem)
    cases part with
    | text text => rw [render, render, hrest]
    | hole hole => rw [render, render, hrest, h hole List.mem_cons_self]

theorem written_eq_render (template : Template) :
    template.written = template.render fun name => String.ofList (placeholder name) := by
  induction template with
  | nil => rfl
  | cons part rest ih =>
    rw [written] at ih
    cases part <;> simp [written, Part.written, ← ih]

theorem closes_render {value : String → String} {template : Template} (h : template.spaced = true)
    (hapart : template.standsApart = true) : closes (template.render value).toList = false := by
  induction template with
  | nil => rfl
  | cons part rest ih =>
    cases part with
    | hole name => cases hapart
    | text text =>
      obtain ⟨-, hbrace, hspaced⟩ := spaced_text_iff.mp h
      refine eq_false_of_ne_true fun hcloses => ?_
      rw [render, String.toList_append] at hcloses
      obtain ⟨hblank, hrest⟩ := closes_append hbrace hcloses
      simp only [standsApart, Bool.or_eq_true, List.contains_eq_mem, decide_eq_true_eq] at hapart
      rw [ih hspaced (hapart.resolve_left hblank)] at hrest
      cases hrest

/-- Replacing a placeholder in a template is replacing it in what its holes hold. -/
theorem fillOne_render {template : Template} (h : template.spaced = true)
    (hname : plainName name = true) (content : String → String) :
    fillOne (template.render content) name value =
      template.render fun hole => fillOne (content hole) name value := by
  induction template with
  | nil => rfl
  | cons part rest ih =>
    simp only [fillOne, ← String.toList_inj, String.toList_ofList] at ih ⊢
    cases part with
    | text text =>
      obtain ⟨hbrace, -, hspaced⟩ := spaced_text_iff.mp h
      rw [render, render, String.toList_append, String.toList_append,
        replaceAll_text_append hbrace, ih hspaced]
    | hole hole =>
      obtain ⟨-, hapart, hspaced⟩ := spaced_hole_iff.mp h
      rw [render, render, String.toList_append, String.toList_append, String.toList_ofList,
        replaceAll_append_of_not_closes hname (closes_render hspaced hapart), ih hspaced]

/-- Filling a template fills each hole on its own. -/
theorem fill_render {template : Template} (h : template.spaced = true)
    (hnames : ∀ field ∈ fields, plainName field.1 = true) (content : String → String) :
    fill (template.render content) fields =
      template.render fun hole => fill (content hole) fields := by
  induction fields generalizing content with
  | nil => rfl
  | cons field rest ih =>
    simp only [fill, List.foldl_cons] at ih ⊢
    rw [fillOne_render h (hnames field List.mem_cons_self),
      ih fun other hmem => hnames other (List.mem_cons_of_mem _ hmem)]

/-- What a hole is filled with: the value of its field, in which the fields after it are filled in.
A hole without a field keeps its placeholder. -/
def filled (name : String) : List (String × String) → String
  | [] => String.ofList (placeholder name)
  | (key, value) :: later => if key = name then fill value later else filled name later

theorem fill_placeholder (hname : plainName name = true)
    (hnames : ∀ field ∈ fields, plainName field.1 = true) :
    fill (String.ofList (placeholder name)) fields = filled name fields := by
  induction fields with
  | nil => rfl
  | cons field rest ih =>
    obtain ⟨key, value⟩ := field
    have hone : fillOne (String.ofList (placeholder name)) key value =
        if key = name then value else String.ofList (placeholder name) := by
      rw [fillOne, String.toList_ofList, replaceAll_placeholder hname]
      split
      · rw [String.ofList_toList]
      · rfl
    rw [fill, List.foldl_cons, hone, filled]
    split
    · rfl
    · exact ih fun other hmem => hnames other (List.mem_cons_of_mem _ hmem)

/-- The text of a template with its fields filled in. -/
theorem fill_written {template : Template} (h : template.spaced = true)
    (hnames : ∀ field ∈ fields, plainName field.1 = true) :
    fill template.written fields = template.render fun name => filled name fields := by
  rw [written_eq_render, fill_render h hnames]
  exact render_congr fun name hhole => fill_placeholder (plainName_of_hole h hhole) hnames

theorem fill_eq_self (h : ∀ field ∈ fields, ¬placeholder field.1 <:+: value.toList) :
    fill value fields = value := by
  induction fields with
  | nil => rfl
  | cons field rest ih =>
    have hone : fillOne value field.1 field.2 = value := by
      rw [fillOne, replaceAll_eq_self (h field List.mem_cons_self), String.ofList_toList]
    rw [fill, List.foldl_cons, hone]
    exact ih fun other hmem => h other (List.mem_cons_of_mem _ hmem)

/-- A field that has a hole in the template does not hold the placeholder of a later one. -/
def Spares (template : Template) (field later : String × String) : Prop :=
  .hole field.1 ∈ template → ¬placeholder later.1 <:+: field.2.toList

instance (template : Template) (field later : String × String) :
    Decidable (Spares template field later) :=
  inferInstanceAs (Decidable (_ → _))

/-- Where fields spare those after them, a hole is filled with the value of its field. -/
theorem filled_eq_lookup {template : Template} (hhole : .hole name ∈ template)
    (h : fields.Pairwise (Spares template)) :
    filled name fields =
      (Dict.lookup name fields).getD (String.ofList (placeholder name)) := by
  induction fields with
  | nil => rfl
  | cons field rest ih =>
    obtain ⟨key, value⟩ := field
    obtain ⟨hlater, hrest⟩ := List.pairwise_cons.mp h
    rw [filled, Dict.lookup]
    split
    · next hkey =>
      subst hkey
      exact fill_eq_self fun later hmem => hlater later hmem hhole
    · exact ih hrest

end Template

/-! ## Fields -/

namespace Dict

variable {α : Type}

theorem lookup_append (name : String) (es more : List (String × α)) :
    lookup name (es ++ more) = (lookup name es).or (lookup name more) := by
  induction es with
  | nil => rfl
  | cons e rest ih =>
    obtain ⟨key, value⟩ := e
    simp only [List.cons_append, lookup]
    split
    · rfl
    · exact ih

/-- Where names are distinct, every pair is the value of its name. -/
theorem get?_ofList_eq_some_iff {pairs : List (String × α)} (h : (pairs.map Prod.fst).Nodup)
    {name : String} {value : α} : (ofList pairs).get? name = some value ↔ (name, value) ∈ pairs := by
  refine ⟨mem_of_get?_ofList, fun hmem => ?_⟩
  obtain ⟨found, hfound⟩ :=
    Option.isSome_iff_exists.mp (isSome_get?_ofList (List.mem_map.mpr ⟨_, hmem, rfl⟩))
  have hsame := List.inj_on_of_nodup_map h (mem_of_get?_ofList hfound) hmem rfl
  rw [← (Prod.mk.inj hsame).2]
  exact hfound

theorem get?_ofList_of_perm {pairs pairs' : List (String × α)} (h : (pairs.map Prod.fst).Nodup)
    (hperm : pairs'.Perm pairs) (name : String) :
    (ofList pairs').get? name = (ofList pairs).get? name := by
  have h' : (pairs'.map Prod.fst).Nodup := (hperm.map Prod.fst).nodup_iff.mpr h
  ext value
  rw [get?_ofList_eq_some_iff h, get?_ofList_eq_some_iff h', hperm.mem_iff]

end Dict

/-! ## Messages -/

namespace Report

theorem Kind.spaced_template (kind : Kind) : kind.template.spaced = true := by
  cases kind <;>
    simp only [template, atLine, Template.spaced, Template.standsApart, Template.plainName] <;>
    -- the kernel is slow to decode the characters of a literal
    (repeat rw [String.toList_ofList]) <;> decide +kernel

namespace Diagnostic

open Template

/-- The fields as they are filled in, after them the line; of fields with one name the last
counts. -/
def substitutions (span : Option Span) (fields : List (String × String)) : List (String × String) :=
  (Dict.ofList fields).entries ++
    [("line", ((span.map Span.line).map fun n => toString n.toNat).getD "")]

/-- The message that is meant: each hole of the template with the value of its field, `line` with
the number of the line or nothing unless a field is called so, and other holes as they are. -/
def onePass (kind : Kind) (span : Option Span) (fields : List (String × String)) : String :=
  kind.template.render fun name =>
    (Dict.lookup name (substitutions span fields)).getD (String.ofList (placeholder name))

theorem plainName_substitutions {span : Option Span} {fields : List (String × String)}
    (h : ∀ field ∈ fields, plainName field.1 = true) :
    ∀ field ∈ substitutions span fields, plainName field.1 = true := by
  intro field hmem
  rcases List.mem_append.mp hmem with hmem | hmem
  · obtain ⟨value, hvalue⟩ := Dict.mem_keys_iff.mp (List.mem_map.mpr ⟨field, hmem, rfl⟩)
    exact h (field.1, value) (Dict.mem_of_get?_ofList hvalue)
  · have hline : plainName "line" = true := by decide +kernel
    rw [List.mem_singleton.mp hmem, hline]

theorem message_eq_fill (kind : Kind) (fileName : String) (span : Option Span)
    (fields : List (String × String)) :
    (of kind fileName span fields).message =
      fill kind.template.written (substitutions span fields) := by
  rw [substitutions, fill, List.foldl_append]
  rfl

/-- The message that is meant does not depend on the order of the fields. -/
theorem onePass_of_perm (kind : Kind) (span : Option Span) {fields reordered : List (String × String)}
    (hnodup : (fields.map Prod.fst).Nodup) (hperm : reordered.Perm fields) :
    onePass kind span reordered = onePass kind span fields := by
  refine render_congr fun name _ => ?_
  have hget := Dict.get?_ofList_of_perm hnodup hperm name
  simp only [Dict.get?] at hget
  rw [substitutions, substitutions, Dict.lookup_append, Dict.lookup_append, hget]

/-- If the names of the fields have no braces and no blanks, (a) each hole is filled with the value
of its field, in which the later fields and the line are filled in once more. (b) The message is the
one that is meant if no value that is put in holds the placeholder of a later field or of the line.
(c) Fields of which this is true in two orders have one message in both. -/
theorem message_filled (kind : Kind) (fileName : String) (span : Option Span)
    (fields : List (String × String)) (hnames : ∀ field ∈ fields, plainName field.1 = true) :
    (of kind fileName span fields).message =
        kind.template.render (fun name => filled name (substitutions span fields)) ∧
      ((substitutions span fields).Pairwise (Spares kind.template) →
        (of kind fileName span fields).message = onePass kind span fields) ∧
      ∀ reordered, reordered.Perm fields → (fields.map Prod.fst).Nodup →
        (substitutions span fields).Pairwise (Spares kind.template) →
        (substitutions span reordered).Pairwise (Spares kind.template) →
          (of kind fileName span reordered).message = (of kind fileName span fields).message := by
  have hfilled {fields} (hnames : ∀ field ∈ fields, plainName field.1 = true) :
      (of kind fileName span fields).message =
        kind.template.render (fun name => filled name (substitutions span fields)) := by
    rw [message_eq_fill, fill_written kind.spaced_template (plainName_substitutions hnames)]
  have hmeant {fields} (hnames : ∀ field ∈ fields, plainName field.1 = true)
      (hspares : (substitutions span fields).Pairwise (Spares kind.template)) :
      (of kind fileName span fields).message = onePass kind span fields := by
    rw [hfilled hnames]
    exact render_congr fun name hhole => filled_eq_lookup hhole hspares
  refine ⟨hfilled hnames, hmeant hnames, fun reordered hperm hnodup hspares hspares' => ?_⟩
  rw [hmeant hnames hspares, hmeant (fun field hmem => hnames field (hperm.mem_iff.mp hmem)) hspares',
    onePass_of_perm kind span hnodup hperm]

/-- Braces in values stay as they are where no field is called like what is between them. -/
theorem message_filled_object :
    let expected := ("expected", "\x7b x: Number \x7d")
    let actual := ("actual", "\x7bx\x7d")
    let span := some (Span.onLine 4 0 1)
    let message := "@4: Expected to get a \x7b x: Number \x7d but found \x7bx\x7d."
    (of .typeClassMismatch "a.js" span [expected, actual]).message = message ∧
      (of .typeClassMismatch "a.js" span [actual, expected]).message = message := by
  intro expected actual span message
  have hnames : ∀ field ∈ [expected, actual], plainName field.1 = true := by decide +kernel
  have hspares : (substitutions span [expected, actual]).Pairwise
      (Spares Kind.typeClassMismatch.template) := by decide +kernel
  have hspares' : (substitutions span [actual, expected]).Pairwise
      (Spares Kind.typeClassMismatch.template) := by decide +kernel
  obtain ⟨-, hmeant, horder⟩ := message_filled .typeClassMismatch "a.js" span _ hnames
  have hmessage : onePass .typeClassMismatch span [expected, actual] = message := by decide +kernel
  refine ⟨(hmeant hspares).trans hmessage, ?_⟩
  rw [horder [actual, expected] (.swap _ _ _) (by decide) hspares hspares', hmeant hspares, hmessage]

/-- The placeholder of the line in the name of a module is filled in too. The order of two fields
matters where the value of one holds the placeholder of the other. A name that is the text between
two holes is found between the values that these are filled with. -/
theorem inserted_text_filled_again :
    (let fields := [("moduleName", "./\x7bline\x7d")]
    (of .unknownModuleRequire "/app/main.js" (some {}) fields).message =
        "@0: Could not resolve module ./0." ∧
      onePass .unknownModuleRequire (some {}) fields =
        "@0: Could not resolve module ./\x7bline\x7d.") ∧
    (let objName := ("objName", "\x7bactual\x7d")
    let actual := ("actual", "A")
    (of .callingNonFunction "a.js" none [objName, actual]).message = "@: Cannot call A of type A." ∧
      (of .callingNonFunction "a.js" none [actual, objName]).message =
        "@: Cannot call \x7bactual\x7d of type A.") ∧
    (let fields := [("objName", "\x7b"), ("actual", "\x7d"), (" of type ", "f")]
    (of .callingNonFunction "a.js" none fields).message = "@: Cannot call f.") := by
  decide +kernel

end Diagnostic

end Report

end HeaderCheck
