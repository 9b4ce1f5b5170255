/-
  The text exposition format of metrics, version 0.0.4.

  A text is a sequence of lines. A line that starts with `#` is a comment, an empty line is skipped,
  and every other line is a sample: the name of the metric, its labels in braces, a blank and the
  value. In a label value `\\`, `\"` and `\n` stand for a backslash, a quote and a line feed. The
  reader takes the form without optional blanks, without a trailing comma and without a timestamp,
  and answers `none` for anything else.

  Proved: an escaped text is read back (`labelValue_escaped`), and one rule for each kind of line
  (`Reads.comment`, `Reads.sample`).
-/
import Mathlib.Data.List.TakeWhile

namespace Exposition

abbrev Labels := List (List Char × List Char)

structure Sample where
  name : List Char
  labels : Labels
  value : List Char
  deriving DecidableEq, Repr

/-! ## The reader -/

/-- The lines of a text. A line feed ends a line. -/
def lines : List Char → List (List Char)
  | [] => []
  | ch :: rest =>
      if ch = '\n' then [] :: lines rest
      else
        match lines rest with
        | [] => [[ch]]
        | line :: more => (ch :: line) :: more

/-- The characters of the names of metrics and labels. -/
def isNameChar (ch : Char) : Bool := ch.isAlphanum || ch == '_' || ch == ':'

/-- A label value behind its opening quote, and what follows the closing one. -/
def labelValue : List Char → Option (List Char × List Char)
  | [] => none
  | '"' :: rest => some ([], rest)
  | '\\' :: '\\' :: rest => (labelValue rest).map fun r => ('\\' :: r.1, r.2)
  | '\\' :: '"' :: rest => (labelValue rest).map fun r => ('"' :: r.1, r.2)
  | '\\' :: 'n' :: rest => (labelValue rest).map fun r => ('\n' :: r.1, r.2)
  | ch :: rest =>
      if ch = '\\' then none else (labelValue rest).map fun r => (ch :: r.1, r.2)

/-- The labels behind the opening brace, and what follows the closing one. -/
def labelsFrom : Nat → List Char → Option (Labels × List Char)
  | 0, _ => none
  | labels + 1, s =>
      match s.dropWhile isNameChar with
      | '=' :: '"' :: quoted =>
          match labelValue quoted with
          | some (value, ',' :: rest) =>
              (labelsFrom labels rest).map fun r => ((s.takeWhile isNameChar, value) :: r.1, r.2)
          | some (value, '}' :: rest) => some ([(s.takeWhile isNameChar, value)], rest)
          | _ => none
      | _ => none

/-- A sample from its parts. -/
def sampleOf (name : List Char) (labels : Labels) (value : List Char) : Option Sample :=
  if name ≠ [] ∧ value ≠ [] ∧ ' ' ∉ value then
    some { name := name, labels := labels, value := value }
  else none

def readSample (line : List Char) : Option Sample :=
  match line.dropWhile isNameChar with
  | '{' :: rest =>
      match labelsFrom rest.length rest with
      | some (labels, ' ' :: value) => sampleOf (line.takeWhile isNameChar) labels value
      | _ => none
  | ' ' :: value => sampleOf (line.takeWhile isNameChar) [] value
  | _ => none

def readLines : List (List Char) → Option (List Sample)
  | [] => some []
  | [] :: more => readLines more
  | ('#' :: _) :: more => readLines more
  | line :: more =>
      match readSample line with
      | none => none
      | some sample => (readLines more).map fun samples => sample :: samples

/-- The samples of a text. -/
def read (text : List Char) : Option (List Sample) := readLines (lines text)

/-! ## Escaped values -/

/-- How a character is written in a label value. -/
def escapeChar (ch : Char) : List Char :=
  if ch = '\\' then ['\\', '\\']
  else if ch = '"' then ['\\', '"']
  else if ch = '\n' then ['\\', 'n']
  else [ch]

/-- An escaped text is read back, up to the closing quote. -/
theorem labelValue_escaped (value rest : List Char) :
    labelValue (value.flatMap escapeChar ++ '"' :: rest) = some (value, rest) := by
  induction value with
  | nil => rfl
  | cons ch value ih =>
      rw [List.flatMap_cons, List.append_assoc]
      by_cases hback : ch = '\\'
      · subst hback
        show (labelValue (value.flatMap escapeChar ++ '"' :: rest)).map _ = _
        rw [ih]
        rfl
      · by_cases hquote : ch = '"'
        · subst hquote
          show (labelValue (value.flatMap escapeChar ++ '"' :: rest)).map _ = _
          rw [ih]
          rfl
        · by_cases hline : ch = '\n'
          · subst hline
            show (labelValue (value.flatMap escapeChar ++ '"' :: rest)).map _ = _
            rw [ih]
            rfl
          · have hplain : escapeChar ch = [ch] := by simp [escapeChar, hback, hquote, hline]
            rw [hplain, List.singleton_append, labelValue.eq_6, if_neg hback, ih]
            · rfl
            · exact hquote
            · exact fun _ h _ => hback h
            · exact fun _ h _ => hback h
            · exact fun _ h _ => hback h

/-- An escaped text stays on its line. -/
theorem newline_not_mem_escapeChar (ch : Char) : '\n' ∉ escapeChar ch := by
  unfold escapeChar
  split
  · decide
  · split
    · decide
    · split
      case isTrue => decide
      case isFalse hne =>
        exact fun hmem => hne (List.mem_singleton.mp hmem).symm

/-! ## Labels -/

/-- The name of a metric or of a label. -/
def IsName (name : List Char) : Prop := name ≠ [] ∧ name.all isNameChar = true

instance (name : List Char) : Decidable (IsName name) := inferInstanceAs (Decidable (_ ∧ _))

/-- A name is read up to the first character that cannot be part of it. -/
theorem IsName.span {name : List Char} (h : IsName name) (ch : Char)
    (hch : isNameChar ch = false) (rest : List Char) :
    (name ++ ch :: rest).takeWhile isNameChar = name ∧
      (name ++ ch :: rest).dropWhile isNameChar = ch :: rest := by
  have hall := List.all_eq_true.mp h.2
  rw [List.takeWhile_append_of_pos hall, List.dropWhile_append_of_pos hall]
  simp [hch]

def labelText (label : List Char × List Char) : List Char :=
  label.1 ++ '=' :: '"' :: (label.2.flatMap escapeChar ++ ['"'])

def labelsText (labels : Labels) : List Char := [','].intercalate (labels.map labelText)

theorem labelsText_singleton (label : List Char × List Char) :
    labelsText [label] = labelText label := by
  simp [labelsText, List.intercalate]

theorem labelsText_cons (label next : List Char × List Char) (labels : Labels) :
    labelsText (label :: next :: labels) =
      labelText label ++ ',' :: labelsText (next :: labels) := by
  simp [labelsText, List.intercalate]

theorem labelText_append (label : List Char × List Char) (rest : List Char) :
    labelText label ++ rest =
      label.1 ++ '=' :: '"' :: (label.2.flatMap escapeChar ++ '"' :: rest) := by
  simp [labelText]

/-- Labels are read back. -/
theorem labelsFrom_text {labels : Labels} (hne : labels ≠ [])
    (hnames : ∀ label ∈ labels, IsName label.1) (after : List Char) {n : Nat}
    (hn : labels.length ≤ n) :
    labelsFrom n (labelsText labels ++ '}' :: after) = some (labels, after) := by
  induction labels generalizing n with
  | nil => exact absurd rfl hne
  | cons label labels ih =>
      have hname := hnames label List.mem_cons_self
      cases n with
      | zero => exact absurd hn (Nat.not_succ_le_zero _)
      | succ n =>
          cases labels with
          | nil =>
              obtain ⟨htake, hdrop⟩ := hname.span '=' rfl
                ('"' :: (label.2.flatMap escapeChar ++ '"' :: '}' :: after))
              rw [labelsText_singleton, labelText_append]
              simp only [labelsFrom, htake, hdrop, labelValue_escaped]
          | cons next labels =>
              have hrest := ih (List.cons_ne_nil _ _)
                (fun l hl => hnames l (List.mem_cons_of_mem _ hl))
                (Nat.le_of_succ_le_succ hn)
              rw [labelsText_cons, List.append_assoc, List.cons_append, labelText_append]
              obtain ⟨htake, hdrop⟩ := hname.span '=' rfl ('"' ::
                (label.2.flatMap escapeChar ++ '"' :: ',' ::
                  (labelsText (next :: labels) ++ '}' :: after)))
              simp only [labelsFrom, htake, hdrop, labelValue_escaped, hrest, Option.map_some]

theorem length_le_labelsText (labels : Labels) :
    labels.length ≤ (labelsText labels).length + 1 := by
  induction labels with
  | nil => exact Nat.zero_le _
  | cons label labels ih =>
      cases labels with
      | nil => simp
      | cons next labels =>
          rw [labelsText_cons, List.length_append]
          simp only [List.length_cons] at ih ⊢
          omega

theorem newline_not_mem_labelsText {labels : Labels} (hnames : ∀ label ∈ labels, IsName label.1) :
    '\n' ∉ labelsText labels := by
  induction labels with
  | nil => nofun
  | cons label labels ih =>
      have hlabel : '\n' ∉ labelText label := by
        have hname : '\n' ∉ label.1 := fun hmem => absurd
          (List.all_eq_true.mp (hnames label List.mem_cons_self).2 _ hmem) (by decide)
        simp [labelText, hname, newline_not_mem_escapeChar]
      have hrest := ih fun l hl => hnames l (List.mem_cons_of_mem _ hl)
      cases labels with
      | nil => rwa [labelsText_singleton]
      | cons next labels =>
          rw [labelsText_cons]
          simp [hlabel, hrest]

/-! ## Rules for the lines -/

theorem lines_line {line : List Char} (h : '\n' ∉ line) (rest : List Char) :
    lines (line ++ '\n' :: rest) = line :: lines rest := by
  induction line with
  | nil => exact if_pos rfl
  | cons ch line ih =>
      have hch : ch ≠ '\n' := fun heq => h (heq ▸ List.mem_cons_self)
      rw [List.cons_append, lines, if_neg hch, ih fun hmem => h (List.mem_cons_of_mem _ hmem)]

/-- The text reads as the samples. -/
def Reads (text : List Char) (samples : List Sample) : Prop := read text = some samples

theorem Reads.nil : Reads [] [] := rfl

theorem Reads.comment (line : List Char) {rest : List Char} {samples : List Sample}
    (hline : '\n' ∉ line) (h : Reads rest samples) :
    Reads ('#' :: line ++ '\n' :: rest) samples := by
  unfold Reads read
  rw [lines_line (by simp [hline])]
  exact h

theorem Reads.sample {line rest : List Char} {sample : Sample} {samples : List Sample}
    (hline : '\n' ∉ line) (hsample : readSample line = some sample) (h : Reads rest samples) :
    Reads (line ++ '\n' :: rest) (sample :: samples) := by
  have hread : readLines (lines rest) = some samples := h
  unfold Reads read
  rw [lines_line hline, readLines.eq_4, hsample, hread]
  · rfl
  · rintro rfl
    cases hsample
  · rintro more rfl
    cases hsample

/-- A value as it is written: not empty and without a blank or a line feed. -/
def IsValue (value : List Char) : Prop := value ≠ [] ∧ ' ' ∉ value ∧ '\n' ∉ value

theorem IsName.no_newline {name : List Char} (h : IsName name) : '\n' ∉ name :=
  fun hmem => absurd (List.all_eq_true.mp h.2 _ hmem) (by decide)

/-- A sample without labels. -/
theorem Reads.plain (name : List Char) {value rest : List Char} {samples : List Sample}
    (hname : IsName name) (hvalue : IsValue value) (h : Reads rest samples) :
    Reads (name ++ ' ' :: (value ++ '\n' :: rest))
      ({ name := name, labels := [], value := value } :: samples) := by
  obtain ⟨htake, hdrop⟩ := hname.span ' ' rfl value
  have hread : readSample (name ++ ' ' :: value) =
      some { name := name, labels := [], value := value } := by
    simp only [readSample, htake, hdrop]
    exact if_pos ⟨hname.1, hvalue.1, hvalue.2.1⟩
  have hline : '\n' ∉ name ++ ' ' :: value := by
    simp [hname.no_newline, hvalue.2.2]
  have hreads := Reads.sample hline hread h
  rwa [List.append_assoc, List.cons_append] at hreads

/-- A sample with labels. -/
theorem Reads.labelled {name value rest : List Char} {labels : Labels} {samples : List Sample}
    (hname : IsName name) (hne : labels ≠ []) (hnames : ∀ label ∈ labels, IsName label.1)
    (hvalue : IsValue value) (h : Reads rest samples) :
    Reads (name ++ '{' :: (labelsText labels ++ '}' :: ' ' :: (value ++ '\n' :: rest)))
      ({ name := name, labels := labels, value := value } :: samples) := by
  obtain ⟨htake, hdrop⟩ := hname.span '{' rfl (labelsText labels ++ '}' :: ' ' :: value)
  have hlabels := labelsFrom_text hne hnames (' ' :: value)
    (n := (labelsText labels ++ '}' :: ' ' :: value).length) (by
      have := length_le_labelsText labels
      rw [List.length_append, List.length_cons]
      omega)
  have hread : readSample (name ++ '{' :: (labelsText labels ++ '}' :: ' ' :: value)) =
      some { name := name, labels := labels, value := value } := by
    simp only [readSample, htake, hdrop, hlabels]
    exact if_pos ⟨hname.1, hvalue.1, hvalue.2.1⟩
  have hline : '\n' ∉ name ++ '{' :: (labelsText labels ++ '}' :: ' ' :: value) := by
    simp [hname.no_newline, newline_not_mem_labelsText hnames, hvalue.2.2]
  have hreads := Reads.sample hline hread h
  rwa [List.append_assoc, List.cons_append, List.append_assoc, List.cons_append,
    List.cons_append] at hreads

end Exposition
