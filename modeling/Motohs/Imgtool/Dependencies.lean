import Motohs.Imgtool.Image

/-! `get_dependencies`: the images and versions that the text of `--dependencies` lists. -/

namespace Motohs.Imgtool

open Lib

/-- `str.isspace` of a single character, and the `\s` of the expressions. -/
def isBlank (char : Char) : Bool :=
  let code := char.toNat
  (9 ≤ code ∧ code ≤ 13) ∨ (28 ≤ code ∧ code ≤ 32) ∨ (0x2000 ≤ code ∧ code ≤ 0x200a) ∨
    code ∈ [0x85, 0xa0, 0x1680, 0x2028, 0x2029, 0x202f, 0x205f, 0x3000]

/-- `[0-9.+]` -/
def isVersionChar (char : Char) : Bool := char.isDigit || char = '.' || char = '+'

/-- `\((\d+)` -/
def imagesRe (digits : Digits) : Regex Char := .seq (.one (· = '(')) (.group 1 (Regex.plus digits.isDigit))

/-- `,\s*([0-9.+]+)\)` -/
def versionsRe : Regex Char :=
  .seq (.one (· = ',')) (.seq (.many isBlank) (.seq (.group 1 (Regex.plus isVersionChar)) (.one (· = ')'))))

def dependencyFormatError (value : List Char) : Raised :=
  .badParameter ("Image dependency format is invalid: ".toList ++ value)

def dependencyMismatch (value : List Char) : Raised :=
  .badParameter ("There's a mismatch between the number of dependency images\n".toList ++
    "                and versions in: ".toList ++ value)

def decodeDependencyVersion (digits : Digits) (rawVersion : List Char) : Except Raised SemiSemVersion :=
  (decodeVersion digits rawVersion).mapError Raised.badParameter

def getDependencies (digits : Digits) : Option (List Char) → Except Raised (Option Dependencies)
  | none => .ok none
  | some value =>
    let images := (imagesRe digits).findGroup 1 value
    let rawVersions := versionsRe.findGroup 1 value
    if images.length = 0 then .error (dependencyFormatError value)
    else if counts : images.length ≠ rawVersions.length then .error (dependencyMismatch value)
    else
      match made : rawVersions.mapM (decodeDependencyVersion digits) with
      | .error raised => .error raised
      | .ok versions => .ok (some ⟨images.map digits.int, versions, by
          rw [List.length_map, not_not.mp counts]
          exact (mapM_eq_ok_iff.mp made).length_eq⟩)

/-- A dependency as it is written, and what is written up to the next one. -/
structure Entry (digits : Digits) where
  number : List Char
  blanks : List Char
  version : List Char
  gap : List Char
  numbered : number ≠ []
  number_digit : ∀ char ∈ number, digits.isDigit char = true
  blanks_blank : ∀ char ∈ blanks, isBlank char = true
  versioned : version ≠ []
  version_char : ∀ char ∈ version, isVersionChar char = true
  gap_other : ∀ char ∈ gap, char ≠ '(' ∧ isVersionChar char = false

namespace Entry

variable {digits : Digits}

def text (entry : Entry digits) : List Char :=
  '(' :: (entry.number ++ ',' :: (entry.blanks ++ (entry.version ++ ')' :: entry.gap)))

/-- The text of the entries, one after the other. -/
def texts (entries : List (Entry digits)) : List Char := entries.flatMap text

end Entry

section Listing

variable {digits : Digits}

open Regex

theorem isBlank_of_isVersionChar {char : Char} (version : isVersionChar char = true) : isBlank char = false := by
  have code : 43 ≤ char.toNat ∧ char.toNat ≤ 57 := by
    simp only [isVersionChar, Bool.or_eq_true, decide_eq_true_eq] at version
    rcases version with (digit | rfl) | rfl
    · simp only [Char.isDigit, Bool.and_eq_true, decide_eq_true_eq, ge_iff_le, UInt32.le_iff_toNat_le] at digit
      exact ⟨Nat.le_trans (by decide) digit.1, digit.2⟩
    · decide
    · decide
  simp only [isBlank, decide_eq_false_iff_not, List.mem_cons, List.not_mem_nil, or_false]
  omega

theorem takes_imagesRe : Takes (imagesRe digits) := takes_seq_one _ _

theorem takes_versionsRe : Takes versionsRe := takes_seq_one _ _

theorem imagesRe_append {front : List Char} (other : ∀ char ∈ front, decide (char = '(') = false)
    (rest : List Char) : (imagesRe digits).findGroup 1 (front ++ rest) = (imagesRe digits).findGroup 1 rest :=
  findGroup_append other rest

theorem versionsRe_append {front : List Char} (other : ∀ char ∈ front, decide (char = ',') = false)
    (rest : List Char) : versionsRe.findGroup 1 (front ++ rest) = versionsRe.findGroup 1 rest :=
  findGroup_append other rest

/-- A symbol that is of a class and one that is not. -/
theorem distinguished {char other : Char} (accepts : Char → Bool) (accepted : accepts char = true)
    (rejected : accepts other = false) : decide (char = other) = false := by
  refine decide_eq_false ?_
  rintro rfl
  rw [accepted] at rejected
  cases rejected

theorem imagesRe_match (entry : Entry digits) (rest : List Char) :
    (imagesRe digits).match? (entry.text ++ rest) =
      some ⟨',' :: (entry.blanks ++ (entry.version ++ ')' :: (entry.gap ++ rest))), [(1, entry.number)]⟩ := by
  have comma : digits.isDigit ',' = false := by
    rw [digits.isDigit_ascii (by decide)]
    rfl
  simp only [Entry.text, List.cons_append, List.append_assoc]
  rw [match?, imagesRe, run_seq_one (by decide)]
  refine run_group_plus entry.numbered entry.number_digit ?_ rfl
  simpa using comma

theorem versionsRe_match (entry : Entry digits) (rest : List Char) :
    versionsRe.match? (',' :: (entry.blanks ++ (entry.version ++ ')' :: rest))) =
      some ⟨rest, [(1, entry.version)]⟩ := by
  obtain ⟨first, others, version⟩ := List.exists_cons_of_ne_nil entry.versioned
  have front : isVersionChar first = true :=
    entry.version_char first (version ▸ List.mem_cons_self)
  rw [match?, versionsRe, run_seq_one (by decide), run]
  refine runMany_greedy entry.blanks_blank ?_ ?_
  · rw [version]
    simpa using isBlank_of_isVersionChar front
  · rw [run]
    refine run_group_plus entry.versioned entry.version_char ?_ rfl
    simpa using (by decide : isVersionChar ')' = false)

/-- Where no version follows a comma, there is no match at it. -/
theorem versionsRe_failed {text : List Char}
    (other : ∀ char ∈ (text.dropWhile isBlank).head?, isVersionChar char = false) :
    versionsRe.match? (',' :: text) = none := by
  refine run_eq_none_iff.mpr fun done matched => ?_
  obtain ⟨_, comma, matched⟩ := matches_seq_iff.mp matched
  obtain ⟨_, _, same, _, rfl⟩ := matches_one_iff.mp comma
  cases same
  obtain ⟨_, blanks, matched⟩ := matches_seq_iff.mp matched
  obtain ⟨front, rest, rfl, blank, rfl⟩ := matches_many_iff.mp blanks
  obtain ⟨_, grouped, _⟩ := matches_seq_iff.mp matched
  obtain ⟨_, _, _, _, inside, _⟩ := matches_group_iff.mp grouped
  obtain ⟨_, first, _⟩ := matches_seq_iff.mp inside
  obtain ⟨char, more, rfl, version, _⟩ := matches_one_iff.mp first
  have stop := isBlank_of_isVersionChar version
  rw [List.dropWhile_append_of_pos blank, List.dropWhile_cons_of_neg (by simp [stop])] at other
  rw [other char rfl] at version
  cases version

theorem versionsRe_gap {gap : List Char} (others : ∀ char ∈ gap, char ≠ '(' ∧ isVersionChar char = false)
    {rest : List Char} (halts : ∀ char ∈ (rest.dropWhile isBlank).head?, isVersionChar char = false) :
    versionsRe.findGroup 1 (gap ++ rest) = versionsRe.findGroup 1 rest ∧
      ∀ char ∈ ((gap ++ rest).dropWhile isBlank).head?, isVersionChar char = false := by
  induction gap with
  | nil => exact ⟨rfl, halts⟩
  | cons symbol gap ih =>
    obtain ⟨⟨_, here⟩, later⟩ := List.forall_mem_cons.mp others
    obtain ⟨skipped, stops⟩ := ih later
    constructor
    · rw [List.cons_append, ← skipped]
      refine findGroup_skip ?_
      by_cases comma : symbol = ','
      · subst comma
        exact versionsRe_failed stops
      · simp [versionsRe, match?, run, comma]
    · rw [List.cons_append, List.dropWhile_cons]
      split
      · exact stops
      · simpa using here

/-- The numbers and the versions are found, in the order in which they are listed. -/
theorem findGroup_texts (entries : List (Entry digits)) :
    (imagesRe digits).findGroup 1 (Entry.texts entries) = entries.map Entry.number ∧
      versionsRe.findGroup 1 (Entry.texts entries) = entries.map Entry.version ∧
      ∀ char ∈ ((Entry.texts entries).dropWhile isBlank).head?, isVersionChar char = false := by
  induction entries with
  | nil => exact ⟨rfl, rfl, by simp [Entry.texts]⟩
  | cons entry entries ih =>
    obtain ⟨images, versions, stops⟩ := ih
    have whole : Entry.texts (entry :: entries) = entry.text ++ Entry.texts entries := rfl
    rw [whole]
    refine ⟨?_, ?_, ?_⟩
    · have between : ∀ char ∈ ',' :: (entry.blanks ++ (entry.version ++ ')' :: entry.gap)),
          decide (char = '(') = false := by
        simp only [List.forall_mem_cons, List.forall_mem_append]
        refine ⟨by decide, ?_, ?_, by decide, ?_⟩
        · exact fun char member => distinguished isBlank (entry.blanks_blank char member) (by decide)
        · exact fun char member => distinguished isVersionChar (entry.version_char char member) (by decide)
        · exact fun char member => decide_eq_false (entry.gap_other char member).1
      have skipped := @imagesRe_append digits _ between (Entry.texts entries)
      simp only [List.cons_append, List.append_assoc] at skipped
      rw [findGroup_match takes_imagesRe (imagesRe_match entry _)]
      exact congrArg (entry.number :: ·) (skipped.trans images)
    · have between : ∀ char ∈ '(' :: entry.number, decide (char = ',') = false := by
        have comma : digits.isDigit ',' = false := digits.isDigit_ascii (by decide)
        simp only [List.forall_mem_cons]
        exact ⟨by decide, fun char member => distinguished digits.isDigit (entry.number_digit char member) comma⟩
      have skipped := versionsRe_append between
        (',' :: (entry.blanks ++ (entry.version ++ ')' :: (entry.gap ++ Entry.texts entries))))
      have found := findGroup_match takes_versionsRe (versionsRe_match entry (entry.gap ++ Entry.texts entries))
      have behind := (versionsRe_gap entry.gap_other stops).1
      simp only [Entry.text, List.cons_append, List.append_assoc] at skipped ⊢
      rw [List.map_cons, ← versions, ← behind, ← found]
      exact skipped
    · simp [Entry.text, List.dropWhile_cons_of_neg (show ¬ isBlank '(' = true by decide)]
      decide

end Listing

theorem Dependencies.ext {one other : Dependencies} (images : one.images = other.images)
    (versions : one.versions = other.versions) : one = other := by
  cases one
  cases other
  cases images
  cases versions
  rfl

theorem decodeDependencyVersion_eq_ok_iff : decodeDependencyVersion digits text = .ok version ↔
    decodeVersion digits text = .ok version := by
  unfold decodeDependencyVersion
  cases decodeVersion digits text <;> simp [Except.mapError]

/-- What is returned for a text, by what is found in it. -/
theorem getDependencies_eq_ok_iff {digits : Digits} {value : List Char} :
    getDependencies digits (some value) = .ok (some dependencies) ↔
      (imagesRe digits).findGroup 1 value ≠ [] ∧
        dependencies.images = ((imagesRe digits).findGroup 1 value).map digits.int ∧
        List.Forall₂ (fun text version => decodeVersion digits text = .ok version) (versionsRe.findGroup 1 value)
          dependencies.versions := by
  have decoded (found : List SemiSemVersion) :
      (versionsRe.findGroup 1 value).mapM (decodeDependencyVersion digits) = .ok found ↔
        List.Forall₂ (fun text version => decodeVersion digits text = .ok version)
          (versionsRe.findGroup 1 value) found := by
    rw [mapM_eq_ok_iff]
    simp only [decodeDependencyVersion_eq_ok_iff]
  unfold getDependencies
  dsimp only
  split
  · rename_i none
    exact iff_of_false (by simp) fun found => found.1 (List.length_eq_zero_iff.mp none)
  · rename_i present
    split
    · rename_i counts
      refine iff_of_false (by simp) ?_
      rintro ⟨_, images, versions⟩
      have paired := dependencies.paired
      rw [images, List.length_map, ← versions.length_eq] at paired
      exact counts paired
    · split
      · rename_i raised failed
        refine iff_of_false (by simp) ?_
        rintro ⟨_, _, versions⟩
        rw [(decoded _).mpr versions] at failed
        cases failed
      · rename_i found made
        constructor
        · intro same
          cases same
          exact ⟨List.length_eq_zero_iff.not.mp present, rfl, (decoded found).mp made⟩
        · rintro ⟨_, images, versions⟩
          have same := (decoded _).mpr versions
          rw [made] at same
          cases same
          exact congrArg (Except.ok ∘ some) (Dependencies.ext images.symm rfl)

theorem isVersionChar_of_mem_text {version : SemiSemVersion} (member : char ∈ version.text) :
    isVersionChar char = true := by
  have digit (number : Nat) (member : char ∈ decimal number) : isVersionChar char = true := by
    simp [isVersionChar, isDigit_of_mem_decimal member]
  simp only [SemiSemVersion.text, List.append_assoc, List.cons_append, List.mem_append, List.mem_cons] at member
  rcases member with major | rfl | minor | rfl | revision | rfl | build
  · exact digit _ major
  · decide
  · exact digit _ minor
  · decide
  · exact digit _ revision
  · decide
  · exact digit _ build

theorem text_ne_nil (version : SemiSemVersion) : version.text ≠ [] := by
  simp [SemiSemVersion.text]

theorem other_comma : ∀ char ∈ ", ".toList, char ≠ '(' ∧ isVersionChar char = false := by
  simp [isVersionChar]

/-- A dependency written down, with that behind it. -/
def Entry.of (digits : Digits) (dependency : Nat × SemiSemVersion) (gap : List Char)
    (other : ∀ char ∈ gap, char ≠ '(' ∧ isVersionChar char = false) : Entry digits where
  number := decimal dependency.1
  blanks := []
  version := dependency.2.text
  gap
  numbered := decimal_ne_nil _
  number_digit _ member := digits.isDigit_of_isDigit (isDigit_of_mem_decimal member)
  blanks_blank _ member := nomatch member
  versioned := text_ne_nil _
  version_char _ member := isVersionChar_of_mem_text member
  gap_other := other

/-- What is read from a list of dependencies: the images in their order, and to each the
version that stands next to it. It is read unless one of the versions is none. -/
theorem getDependencies_texts_iff {digits : Digits} {entries : List (Entry digits)} (present : entries ≠ []) :
    getDependencies digits (some (Entry.texts entries)) = .ok (some dependencies) ↔
      dependencies.images = entries.map (fun entry => digits.int entry.number) ∧
        List.Forall₂ (fun entry version => decodeVersion digits entry.version = .ok version) entries
          dependencies.versions := by
  obtain ⟨images, versions, _⟩ := findGroup_texts entries
  have some : entries.map Entry.number ≠ [] := List.map_eq_nil_iff.not.mpr present
  rw [getDependencies_eq_ok_iff, images, versions, List.map_map, List.forall₂_map_left_iff]
  exact and_iff_right some

theorem other_and : ∀ char ∈ " and ".toList, char ≠ '(' ∧ isVersionChar char = false := by
  simp [isVersionChar]

theorem blank_two : ∀ char ∈ "  ".toList, isBlank char = true := by
  simp [isBlank]

/-- `(2,  1.0.0+0) and (3,2.1.0+7), ` -/
def sampleEntries : List (Entry asciiDigits) :=
  [{ Entry.of asciiDigits (2, ⟨1, 0, 0, 0⟩) " and ".toList other_and with
      blanks := "  ".toList, blanks_blank := blank_two },
    Entry.of asciiDigits (3, ⟨2, 1, 0, 7⟩) ", ".toList other_comma]

theorem getDependencies_texts_sample : getDependencies asciiDigits (some (Entry.texts sampleEntries)) =
    .ok (some ⟨[2, 3], [⟨1, 0, 0, 0⟩, ⟨2, 1, 0, 7⟩], rfl⟩) :=
  (getDependencies_texts_iff (List.cons_ne_nil _ _)).mpr
    ⟨congrArg₂ (· :: · :: []) (asciiDigits.int_decimal 2).symm (asciiDigits.int_decimal 3).symm,
      .cons (decodeVersion_text asciiDigits ⟨1, 0, 0, 0⟩) (.cons (decodeVersion_text asciiDigits ⟨2, 1, 0, 7⟩) .nil)⟩

def dependencyText (dependency : Nat × SemiSemVersion) : List Char :=
  '(' :: (decimal dependency.1 ++ ',' :: (dependency.2.text ++ [')']))

def Dependencies.list (dependencies : Dependencies) : List (Nat × SemiSemVersion) :=
  dependencies.images.zip dependencies.versions

/-- Dependencies in the format of the help text, `(<image_ID>,<image_version>), ...` -/
def Dependencies.text (dependencies : Dependencies) : List Char :=
  ", ".toList.intercalate (dependencies.list.map dependencyText)

/-- The separator is between two of them. -/
def Entry.listed (digits : Digits) : List (Nat × SemiSemVersion) → List (Entry digits)
  | [] => []
  | [last] => [Entry.of digits last [] nofun]
  | first :: next :: rest => Entry.of digits first ", ".toList other_comma :: Entry.listed digits (next :: rest)

theorem texts_listed (digits : Digits) (list : List (Nat × SemiSemVersion)) :
    Entry.texts (Entry.listed digits list) = ", ".toList.intercalate (list.map dependencyText) := by
  have one (dependency : Nat × SemiSemVersion) (gap : List Char)
      (other : ∀ char ∈ gap, char ≠ '(' ∧ isVersionChar char = false) :
      (Entry.of digits dependency gap other).text = dependencyText dependency ++ gap := by
    simp [Entry.text, Entry.of, dependencyText]
  fun_induction Entry.listed digits list with
  | case1 => rfl
  | case2 last => simp [Entry.texts, one]
  | case3 first next rest ih =>
    rw [Entry.texts] at ih ⊢
    rw [List.flatMap_cons, ih, one]
    exact List.intercalate_cons_cons.symm

theorem numbers_listed (digits : Digits) (list : List (Nat × SemiSemVersion)) :
    (Entry.listed digits list).map (fun entry => digits.int entry.number) = list.map Prod.fst := by
  have one (dependency : Nat × SemiSemVersion) : digits.int (decimal dependency.1) = dependency.1 :=
    digits.int_decimal _
  fun_induction Entry.listed digits list with
  | case1 => rfl
  | case2 last => exact congrArg (· :: []) (one last)
  | case3 first next rest ih => exact congrArg₂ List.cons (one first) ih

theorem versions_listed (digits : Digits) (list : List (Nat × SemiSemVersion)) :
    List.Forall₂ (fun entry version => decodeVersion digits entry.version = .ok version)
      (Entry.listed digits list) (list.map Prod.snd) := by
  fun_induction Entry.listed digits list with
  | case1 => exact .nil
  | case2 last => exact .cons (decodeVersion_text digits last.2) .nil
  | case3 first next rest ih => exact .cons (decodeVersion_text digits first.2) ih

/-- Dependencies that are written down are read back. -/
theorem getDependencies_text (digits : Digits) {dependencies : Dependencies} (present : dependencies.images ≠ []) :
    getDependencies digits (some dependencies.text) = .ok (some dependencies) := by
  obtain ⟨images, versions, _⟩ := findGroup_texts (Entry.listed digits dependencies.list)
  have numbers : dependencies.list.map Prod.fst = dependencies.images :=
    List.map_fst_zip (Nat.le_of_eq dependencies.paired)
  have decoded : dependencies.list.map Prod.snd = dependencies.versions :=
    List.map_snd_zip (Nat.le_of_eq dependencies.paired.symm)
  rw [getDependencies_eq_ok_iff, Dependencies.text, ← texts_listed digits, images, versions, List.map_map,
    List.forall₂_map_left_iff]
  refine ⟨?_, ?_, decoded ▸ versions_listed digits dependencies.list⟩
  · intro nothing
    have none := congrArg (List.map digits.int) nothing
    rw [List.map_map] at none
    exact present (numbers ▸ (numbers_listed digits dependencies.list).symm.trans none)
  · exact numbers.symm.trans (numbers_listed digits dependencies.list).symm

theorem getDependencies_text_sample :
    getDependencies asciiDigits (some (Dependencies.text ⟨[2, 3], [⟨1, 0, 0, 0⟩, ⟨2, 1, 0, 7⟩], rfl⟩)) =
      .ok (some ⟨[2, 3], [⟨1, 0, 0, 0⟩, ⟨2, 1, 0, 7⟩], rfl⟩) :=
  getDependencies_text asciiDigits (List.cons_ne_nil _ _)

end Motohs.Imgtool
