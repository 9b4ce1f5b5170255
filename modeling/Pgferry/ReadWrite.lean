/-
  Read/write splitting (`RwSplit` and `default_is_read` of `routing.rs`).

  A text is read as the list of its characters. The grammar comes first (`Leads`): blanks, opening
  parentheses and comments in any order and number, then a keyword, the longest run of identifier
  characters. Comments are those of `SqlText`: block comments nest, and a carriage return ends a
  line as well. The code strips blanks, then comments, then splits at blanks and parentheses, and
  ends a comment at the first `*/` or line feed. So it finds the grammar's keyword only where the
  comments that it strips are `Flat`, and only in texts that are laid out for it (`Plain`).

  Proved: of the texts with flat comments the classifier accepts exactly those that the grammar
  accepts and that are plain (`defaultIsRead_iff`), so it agrees with the grammar exactly when a
  read is plain, and what `route_sql` sends to a replica is a read (`reads_classified_iff`).
-/
import Pgferry.Lib.SqlText
import Pgferry.Routing

namespace Pgferry

/-! ## The code -/

/-- `str::split_once` for a pattern that is not empty: what stands before and behind its first
    occurrence. -/
def splitOnce (pattern : List Char) : List Char → Option (List Char × List Char)
  | [] => none
  | c :: s =>
      if pattern.isPrefixOf (c :: s) then some ([], (c :: s).drop pattern.length)
      else (splitOnce pattern s).map fun r => (c :: r.1, r.2)

/-- The loop of `strip_comments`. Each round takes two characters at least, so the length of the
    text bounds their number. -/
def stripCommentsFrom : Nat → List Char → List Char
  | 0, s => s
  | rounds + 1, s =>
      match s with
      | '-' :: '-' :: rest =>
          stripCommentsFrom rounds (((splitOnce ['\n'] rest).map Prod.snd).getD [])
      | '/' :: '*' :: rest =>
          stripCommentsFrom rounds (((splitOnce ['*', '/'] rest).map Prod.snd).getD [])
      | s => s

/-- `strip_comments`. -/
def stripComments (s : List Char) : List Char := stripCommentsFrom s.length s

/-- `to_ascii_uppercase`. -/
def toAsciiUppercase (s : List Char) : List Char :=
  s.map fun c => if 'a' ≤ c ∧ c ≤ 'z' then Char.ofNat (c.toNat - 32) else c

/-- Where `default_is_read` splits the text. -/
def separates (c : Char) : Bool := isWhiteSpace c || c == '('

/-- The keywords of a read. -/
def readKeywords : List (List Char) := ["SELECT".toList, "SHOW".toList, "TABLE".toList]

/-- `default_is_read`. -/
def defaultIsRead (sql : String) : Bool :=
  let trimmed := sql.toList.dropWhile isWhiteSpace
  let stripped := stripComments trimmed
  let first := toAsciiUppercase
    (((stripped.splitOnP separates).find? fun s => !s.isEmpty).getD [])
  decide (first ∈ readKeywords)

inductive ReadPreference where
  | primaryOnly
  | replicaFirst
  deriving DecidableEq, Repr

structure RwSplit where
  group : EndpointGroup
  primary : String
  preference : ReadPreference
  classifier : String → Bool

namespace RwSplit

/-- `RwSplit::new`. -/
def new (group : EndpointGroup) (primary : String) : RwSplit where
  group := group
  primary := primary
  preference := .replicaFirst
  classifier := defaultIsRead

/-- `with_read_preference`. -/
def withReadPreference (split : RwSplit) (preference : ReadPreference) : RwSplit :=
  { split with preference := preference }

/-- `RwSplit::route`, at the time `now`. -/
def route (split : RwSplit) (now : Nat) (info : RoutingInfo) (isRead : Bool) : String :=
  if !isRead || decide (split.preference = .primaryOnly) then split.primary
  else
    ((info.endpoints.find? fun e =>
      decide (e.id ≠ split.primary) && split.group.isAlive now e.id).map
        EndpointConfig.id).getD split.primary

/-- `RwSplit::route_sql`. -/
def routeSql (split : RwSplit) (now : Nat) (info : RoutingInfo) (sql : String) : String :=
  split.route now info (split.classifier sql)

end RwSplit

/-! ## The grammar -/

/-- The characters of keywords and names: letters, digits, `_`, `$`, and what is beyond ASCII and
    not a blank. -/
def isIdentifier (c : Char) : Bool :=
  c.isAlphanum || c == '_' || c == '$' || (decide (127 < c.toNat) && !isWhiteSpace c)

/-- Skipping blanks, comments and opening parentheses leads from one text to another. -/
inductive Leads : List Char → List Char → Prop where
  | stay (s : List Char) : Leads s s
  | blank {c : Char} {s t : List Char} (hc : isWhiteSpace c = true) (h : Leads s t) :
      Leads (c :: s) t
  | opening {s t : List Char} (h : Leads s t) : Leads ('(' :: s) t
  | line {s t : List Char} (h : Leads (SqlText.lineComment s) t) : Leads ('-' :: '-' :: s) t
  | block {s rest t : List Char} (hs : SqlText.blockComment 0 s = some rest) (h : Leads rest t) :
      Leads ('/' :: '*' :: s) t

/-- The keyword at the start of a text, in capitals. -/
def keywordOf (s : List Char) : List Char := toAsciiUppercase (s.takeWhile isIdentifier)

/-- By the grammar the first keyword is that of a read. -/
def IsRead (sql : List Char) : Prop := ∃ s, Leads sql s ∧ keywordOf s ∈ readKeywords

/-- The line goes on behind a carriage return. -/
def broken : List Char → Bool
  | [] | '\n' :: _ => false
  | '\r' :: rest => rest.head? != some '\n'
  | _ :: rest => broken rest

/-- Another comment opens before the first `*/`. -/
def nested : List Char → Bool
  | [] | '*' :: '/' :: _ => false
  | '/' :: '*' :: _ => true
  | _ :: rest => nested rest

/-- Skipping comments that follow one another directly, each up to the first line feed or `*/`. -/
inductive Comments : List Char → List Char → Prop where
  | stay (s : List Char) : Comments s s
  | line {s text rest t : List Char} (hs : splitOnce ['\n'] s = some (text, rest))
      (h : Comments rest t) : Comments ('-' :: '-' :: s) t
  | block {s text rest t : List Char} (hs : splitOnce ['*', '/'] s = some (text, rest))
      (h : Comments rest t) : Comments ('/' :: '*' :: s) t

/-- None of the comments that follow the leading blanks directly has a carriage return inside its
    line or another comment inside it. -/
def Flat (sql : List Char) : Prop :=
  ∀ s, Comments (sql.dropWhile isWhiteSpace) s →
    (∀ rest, s = '-' :: '-' :: rest → broken rest = false) ∧
      ∀ rest, s = '/' :: '*' :: rest → nested rest = false

/-- The comments stand directly behind the leading blanks and behind one another; then come blanks
    and parentheses only, up to a keyword that a blank, a parenthesis or the end follows. -/
def Plain (sql : List Char) : Prop :=
  ∃ s, Comments (sql.dropWhile isWhiteSpace) s ∧
    (s.dropWhile separates).takeWhile isIdentifier ≠ [] ∧
    ∀ c, ((s.dropWhile separates).dropWhile isIdentifier).head? = some c → separates c = true

/-! ## Characters -/

theorem toNat_lt_of_alphanum {c : Char} (h : c.isAlphanum = true) : c.toNat < 128 := by
  have hval : c.val.toNat = c.toNat := rfl
  delta Char.isAlphanum Char.isAlpha Char.isUpper Char.isLower at h
  simp only [Char.isDigit, UInt32.le_iff_toNat_le, Bool.or_eq_true, Bool.and_eq_true,
    decide_eq_true_eq, ge_iff_le] at h
  have hz : 'z'.val.toNat < 128 := by decide
  have hZ : 'Z'.val.toNat < 128 := by decide
  have h9 : '9'.val.toNat < 128 := by decide
  omega

/-- No separator is part of a keyword. -/
theorem separates_of_identifier {c : Char} (h : isIdentifier c = true) : separates c = false := by
  have hascii : ∀ n, n < 128 → isIdentifier (Char.ofNat n) = true →
      separates (Char.ofNat n) = false := by decide
  by_cases hc : c.toNat < 128
  · have := hascii c.toNat hc
    rw [Char.ofNat_toNat] at this
    exact this h
  · -- beyond ASCII the grammar leaves the blanks out
    have halphanum : c.isAlphanum = false := by
      by_contra hne
      exact hc (toNat_lt_of_alphanum (by simpa using hne))
    have hne : ∀ d : Char, d.toNat < 128 → (c == d) = false := by
      intro d hd
      rw [beq_eq_false_iff_ne]
      rintro rfl
      exact hc hd
    unfold isIdentifier at h
    rw [halphanum, hne '_' (by decide), hne '$' (by decide), Bool.false_or, Bool.false_or,
      Bool.false_or, Bool.and_eq_true] at h
    unfold separates
    rw [hne '(' (by decide), Bool.or_false]
    simpa using h.2

/-- A word that is a read keyword in capitals has identifier characters only. -/
theorem identifier_of_readKeyword {word : List Char}
    (h : toAsciiUppercase word ∈ readKeywords) : ∀ c ∈ word, isIdentifier c = true := by
  have hcapitals : ∀ keyword ∈ readKeywords, keyword.all isIdentifier = true := by decide
  have hascii : ∀ n, n < 128 → 'a' ≤ Char.ofNat n ∧ Char.ofNat n ≤ 'z' →
      isIdentifier (Char.ofNat n) = true := by decide
  intro c hc
  by_cases hlower : 'a' ≤ c ∧ c ≤ 'z'
  · have hle : c.toNat ≤ 'z'.toNat := UInt32.le_iff_toNat_le.mp hlower.2
    have := hascii c.toNat (Nat.lt_of_le_of_lt hle (by decide))
    rw [Char.ofNat_toNat] at this
    exact this hlower
  · have hupper := List.all_eq_true.mp (hcapitals _ h) _ (List.mem_map_of_mem hc)
    rwa [if_neg hlower] at hupper

theorem readKeyword_ne_nil {word : List Char} (h : toAsciiUppercase word ∈ readKeywords) :
    word ≠ [] := by
  rintro rfl
  revert h
  decide

/-! ## Splitting -/

theorem splitOnP_head (p : Char → Bool) (s : List Char) :
    ∃ rest, s.splitOnP p = s.takeWhile (fun c => !p c) :: rest := by
  induction s with
  | nil => exact ⟨[], rfl⟩
  | cons c s ih =>
      obtain ⟨rest, hrest⟩ := ih
      rw [List.splitOnP_cons_eq_if_modifyHead]
      cases hc : p c with
      | true => exact ⟨_, by rw [if_pos rfl, List.takeWhile_cons_of_neg (by simp [hc])]⟩
      | false =>
          rw [if_neg Bool.false_ne_true, hrest, List.takeWhile_cons_of_pos (by simp [hc])]
          exact ⟨rest, rfl⟩

/-- The first piece that is not empty. -/
theorem splitOnP_find (p : Char → Bool) (s : List Char) :
    ((s.splitOnP p).find? fun piece => !piece.isEmpty).getD [] =
      (s.dropWhile p).takeWhile fun c => !p c := by
  induction s with
  | nil => rfl
  | cons c s ih =>
      rw [List.splitOnP_cons_eq_if_modifyHead]
      cases hc : p c with
      | true =>
          rw [if_pos rfl, List.dropWhile_cons_of_pos hc, ← ih]
          rfl
      | false =>
          obtain ⟨rest, hrest⟩ := splitOnP_head p s
          rw [if_neg Bool.false_ne_true, hrest, List.dropWhile_cons_of_neg (by simp [hc]),
            List.takeWhile_cons_of_pos (by simp [hc])]
          rfl

theorem splitOnce_length {pattern s text rest : List Char}
    (h : splitOnce pattern s = some (text, rest)) : rest.length ≤ s.length := by
  induction s generalizing text with
  | nil => cases h
  | cons c s ih =>
      rw [splitOnce] at h
      split at h
      · cases h
        rw [List.length_drop]
        omega
      · obtain ⟨⟨text', rest'⟩, hsplit, heq⟩ := Option.map_eq_some_iff.mp h
        cases heq
        have := ih hsplit
        rw [List.length_cons]
        omega

/-! ## Stripping comments -/

/-- No comment starts here. -/
def Uncommented (s : List Char) : Prop :=
  ∀ rest, s ≠ '-' :: '-' :: rest ∧ s ≠ '/' :: '*' :: rest

theorem stripCommentsFrom_of_comments {s t : List Char} (h : Comments s t) (ht : Uncommented t)
    {rounds : Nat} (hr : s.length ≤ rounds) : stripCommentsFrom rounds s = t := by
  induction h generalizing rounds with
  | stay s =>
      cases rounds with
      | zero => rfl
      | succ rounds =>
          unfold stripCommentsFrom
          split
          · exact absurd rfl (ht _).1
          · exact absurd rfl (ht _).2
          · rfl
  | line hs _ ih =>
      have hlength := splitOnce_length hs
      rw [List.length_cons, List.length_cons] at hr
      obtain ⟨rounds, rfl⟩ : ∃ n, rounds = n + 1 := ⟨rounds - 1, by omega⟩
      rw [stripCommentsFrom, hs]
      exact ih ht (by omega)
  | block hs _ ih =>
      have hlength := splitOnce_length hs
      rw [List.length_cons, List.length_cons] at hr
      obtain ⟨rounds, rfl⟩ : ∃ n, rounds = n + 1 := ⟨rounds - 1, by omega⟩
      rw [stripCommentsFrom, hs]
      exact ih ht (by omega)

/-- Stripping skips comments, or runs into one without an end. -/
theorem comments_stripCommentsFrom (rounds : Nat) (s : List Char) :
    stripCommentsFrom rounds s = [] ∨ Comments s (stripCommentsFrom rounds s) := by
  induction rounds generalizing s with
  | zero => exact .inr (.stay s)
  | succ rounds ih =>
      have hnil : stripCommentsFrom rounds [] = [] := by cases rounds <;> rfl
      unfold stripCommentsFrom
      split
      case h_1 rest =>
        cases hs : splitOnce ['\n'] rest with
        | none => exact .inl hnil
        | some r => exact (ih r.2).imp id (Comments.line hs)
      case h_2 rest =>
        cases hs : splitOnce ['*', '/'] rest with
        | none => exact .inl hnil
        | some r => exact (ih r.2).imp id (Comments.block hs)
      case h_3 => exact .inr (.stay _)

/-! ## The code against the grammar -/

theorem Leads.trans {s t r : List Char} (h : Leads s t) (h' : Leads t r) : Leads s r := by
  induction h with
  | stay s => exact h'
  | blank hc _ ih => exact .blank hc (ih h')
  | opening _ ih => exact .opening (ih h')
  | line _ ih => exact .line (ih h')
  | block hs _ ih => exact .block hs (ih h')

/-- A line without a carriage return inside ends at its first line feed. -/
theorem leads_lineComment {s text rest : List Char}
    (hs : splitOnce ['\n'] s = some (text, rest)) (hb : broken s = false) :
    Leads (SqlText.lineComment s) rest := by
  induction s generalizing text with
  | nil => cases hs
  | cons c s ih =>
      by_cases hlf : c = '\n'
      · subst hlf
        cases hs
        exact .blank rfl (.stay _)
      · have hpat : ['\n'].isPrefixOf (c :: s) = false := by
          simpa [List.isPrefixOf] using Ne.symm hlf
        rw [splitOnce, hpat] at hs
        obtain ⟨⟨text', rest'⟩, hsplit, heq⟩ := Option.map_eq_some_iff.mp hs
        cases heq
        by_cases hcr : c = '\r'
        · -- the line feed comes next
          subst hcr
          cases s with
          | nil => cases hsplit
          | cons d s =>
              obtain rfl : d = '\n' := by simpa [broken] using hb
              cases hsplit
              exact .blank rfl (.blank rfl (.stay _))
        · rw [broken.eq_4 _ _ hlf hcr] at hb
          have hline : SqlText.lineComment (c :: s) = SqlText.lineComment s :=
            List.dropWhile_cons_of_pos (by simp [SqlText.isNewline, hlf, hcr])
          rw [hline]
          exact ih hsplit hb

/-- A block comment without another one inside ends at its first `*/`. -/
theorem blockComment_of_splitOnce {s text rest : List Char}
    (hs : splitOnce ['*', '/'] s = some (text, rest)) (hn : nested s = false) :
    SqlText.blockComment 0 s = some rest := by
  induction s using nested.induct generalizing text with
  | case1 => cases hs
  | case2 s =>
      cases hs
      rfl
  | case3 s => cases hn
  | case4 c s hstop hstart ih =>
      rw [nested.eq_4 _ _ hstop hstart] at hn
      have hpat : ['*', '/'].isPrefixOf (c :: s) = false := by
        rw [Bool.eq_false_iff, ne_eq, List.isPrefixOf_iff_prefix]
        rintro ⟨more, hmore⟩
        cases hmore
        exact hstop more rfl rfl
      rw [splitOnce, hpat] at hs
      obtain ⟨⟨text', rest'⟩, hsplit, heq⟩ := Option.map_eq_some_iff.mp hs
      cases heq
      rw [SqlText.blockComment.eq_5 0 c s hstart (fun more _ => hstop more)
        (fun _ _ h => absurd h.symm (Nat.succ_ne_zero _))]
      exact ih hsplit hn

/-- Where the comments are flat, the code and the grammar skip the same. -/
theorem Comments.leads {s t : List Char} (h : Comments s t)
    (hflat : ∀ s', Comments s s' → (∀ rest, s' = '-' :: '-' :: rest → broken rest = false) ∧
      ∀ rest, s' = '/' :: '*' :: rest → nested rest = false) : Leads s t := by
  induction h with
  | stay s => exact .stay s
  | line hs _ ih =>
      have hline := (hflat _ (.stay _)).1 _ rfl
      exact .line ((leads_lineComment hs hline).trans (ih fun s' h' => hflat s' (.line hs h')))
  | block hs _ ih =>
      have hblock := (hflat _ (.stay _)).2 _ rfl
      exact .block (blockComment_of_splitOnce hs hblock)
        (ih fun s' h' => hflat s' (.block hs h'))

theorem leads_separators (s : List Char) : Leads s (s.dropWhile separates) := by
  induction s with
  | nil => exact .stay _
  | cons c s ih =>
      cases hc : separates c with
      | false =>
          rw [List.dropWhile_cons_of_neg (by simp [hc])]
          exact .stay _
      | true =>
          rw [List.dropWhile_cons_of_pos hc]
          rcases Bool.or_eq_true_iff.mp hc with hw | hp
          · exact .blank hw ih
          · cases eq_of_beq hp
            exact .opening ih

theorem leads_blanks (s : List Char) : Leads s (s.dropWhile isWhiteSpace) := by
  induction s with
  | nil => exact .stay _
  | cons c s ih =>
      cases hc : isWhiteSpace c with
      | false =>
          rw [List.dropWhile_cons_of_neg (by simp [hc])]
          exact .stay _
      | true =>
          rw [List.dropWhile_cons_of_pos hc]
          exact .blank hc ih

/-- The text starts with a keyword. -/
def Worded (s : List Char) : Prop := s.takeWhile isIdentifier ≠ []

theorem worded_cons {c : Char} {s : List Char} : Worded (c :: s) ↔ isIdentifier c = true := by
  unfold Worded
  cases hc : isIdentifier c with
  | true => simp [hc]
  | false => simp [hc]

/-- There is one place to which skipping leads and where a keyword starts. -/
theorem Leads.unique {s t t' : List Char} (h : Leads s t) (ht : Worded t) (h' : Leads s t')
    (ht' : Worded t') : t = t' := by
  have hblank : ∀ {c : Char}, isWhiteSpace c = true → isIdentifier c = false := by
    intro c hc
    by_contra hi
    have hsep := separates_of_identifier (by simpa using hi)
    unfold separates at hsep
    rw [hc] at hsep
    cases hsep
  induction h with
  | stay s =>
      cases h' with
      | stay => rfl
      | blank hc _ =>
          rw [worded_cons, hblank hc] at ht
          cases ht
      | opening _ => exact absurd (worded_cons.mp ht) (by decide)
      | line _ => exact absurd (worded_cons.mp ht) (by decide)
      | block _ _ => exact absurd (worded_cons.mp ht) (by decide)
  | blank hc _ ih =>
      cases h' with
      | stay =>
          rw [worded_cons, hblank hc] at ht'
          cases ht'
      | blank _ h' => exact ih ht h'
      | opening _ => exact absurd hc (by decide)
      | line _ => exact absurd hc (by decide)
      | block _ _ => exact absurd hc (by decide)
  | opening _ ih =>
      cases h' with
      | stay => exact absurd (worded_cons.mp ht') (by decide)
      | blank hc _ => exact absurd hc (by decide)
      | opening h' => exact ih ht h'
  | line _ ih =>
      cases h' with
      | stay => exact absurd (worded_cons.mp ht') (by decide)
      | blank hc _ => exact absurd hc (by decide)
      | line h' => exact ih ht h'
  | block hs _ ih =>
      cases h' with
      | stay => exact absurd (worded_cons.mp ht') (by decide)
      | blank hc _ => exact absurd hc (by decide)
      | block hs' h' =>
          cases hs.symm.trans hs'
          exact ih ht h'

/-- Where the code cuts, the keyword ends: the piece is a run of identifier characters and what
    follows it separates. -/
theorem takeWhile_identifier_of_piece {t : List Char}
    (h : ∀ c ∈ t.takeWhile (fun c => !separates c), isIdentifier c = true) :
    t.takeWhile isIdentifier = t.takeWhile (fun c => !separates c) ∧
      ∀ c, (t.dropWhile isIdentifier).head? = some c → separates c = true := by
  induction t with
  | nil => exact ⟨rfl, by nofun⟩
  | cons c t ih =>
      cases hc : separates c with
      | true =>
          have hi : ¬ isIdentifier c = true := by
            intro hi
            rw [separates_of_identifier hi] at hc
            cases hc
          rw [List.takeWhile_cons_of_neg hi, List.dropWhile_cons_of_neg hi,
            List.takeWhile_cons_of_neg (by simp [hc])]
          refine ⟨rfl, fun d hd => ?_⟩
          cases hd
          exact hc
      | false =>
          have hpiece : (c :: t).takeWhile (fun c => !separates c) =
              c :: t.takeWhile fun c => !separates c := List.takeWhile_cons_of_pos (by simp [hc])
          rw [hpiece] at h ⊢
          have hi := h c List.mem_cons_self
          rw [List.takeWhile_cons_of_pos hi, List.dropWhile_cons_of_pos hi]
          obtain ⟨htake, hdrop⟩ := ih fun d hd => h d (List.mem_cons_of_mem _ hd)
          exact ⟨by rw [htake], hdrop⟩

/-- A keyword that a separator follows is the piece that the code cuts. -/
theorem piece_of_takeWhile_identifier {t : List Char}
    (h : ∀ c, (t.dropWhile isIdentifier).head? = some c → separates c = true) :
    t.takeWhile (fun c => !separates c) = t.takeWhile isIdentifier := by
  induction t with
  | nil => rfl
  | cons c t ih =>
      cases hi : isIdentifier c with
      | true =>
          rw [List.dropWhile_cons_of_pos hi] at h
          rw [List.takeWhile_cons_of_pos hi,
            List.takeWhile_cons_of_pos (by simp [separates_of_identifier hi]), ih h]
      | false =>
          rw [List.dropWhile_cons_of_neg (by simp [hi])] at h
          have hpiece : (c :: t).takeWhile (fun c => !separates c) = [] :=
            List.takeWhile_cons_of_neg (by simp [h c rfl])
          rw [hpiece, List.takeWhile_cons_of_neg (by simp [hi])]

/-- What stands before a keyword with separators only is no comment. -/
theorem uncommented_of_worded {s : List Char} (h : Worded (s.dropWhile separates)) :
    Uncommented s := by
  have hstart : ∀ {c : Char} {rest : List Char}, separates c = false → isIdentifier c = false →
      s ≠ c :: rest := by
    rintro c rest hs hi rfl
    rw [List.dropWhile_cons_of_neg (by simp [hs]), worded_cons, hi] at h
    cases h
  exact fun rest => ⟨hstart (by decide) (by decide), hstart (by decide) (by decide)⟩

/-- Of the texts with flat comments the classifier accepts the reads of the grammar that are
    plain. -/
theorem defaultIsRead_iff {sql : String} (hflat : Flat sql.toList) :
    defaultIsRead sql = true ↔ IsRead sql.toList ∧ Plain sql.toList := by
  unfold defaultIsRead
  dsimp only
  rw [decide_eq_true_iff, splitOnP_find]
  constructor
  · intro h
    have hpiece := takeWhile_identifier_of_piece (identifier_of_readKeyword h)
    have hne := readKeyword_ne_nil h
    rcases comments_stripCommentsFrom (sql.toList.dropWhile isWhiteSpace).length
      (sql.toList.dropWhile isWhiteSpace) with hnil | hcomments
    · unfold stripComments at hne
      rw [hnil] at hne
      exact absurd rfl hne
    · refine ⟨⟨_, ((leads_blanks _).trans (hcomments.leads hflat)).trans (leads_separators _), ?_⟩,
        _, hcomments, ?_, hpiece.2⟩
      · unfold keywordOf
        exact hpiece.1 ▸ h
      · exact hpiece.1 ▸ hne
  · rintro ⟨⟨t, hleads, hread⟩, s, hcomments, hworded, hend⟩
    have hplain := ((leads_blanks _).trans (hcomments.leads hflat)).trans (leads_separators _)
    have ht : t = s.dropWhile separates :=
      hleads.unique (readKeyword_ne_nil hread) hplain hworded
    have hstrip : stripComments (sql.toList.dropWhile isWhiteSpace) = s :=
      stripCommentsFrom_of_comments hcomments (uncommented_of_worded hworded) (Nat.le_refl _)
    rw [hstrip, piece_of_takeWhile_identifier hend, ← ht]
    exact hread

/-- What goes to a replica was classified as a read. -/
theorem RwSplit.read_of_routeSql (split : RwSplit) {now : Nat} {info : RoutingInfo}
    {sql primary : String} (hp : split.primary = primary)
    (h : split.routeSql now info sql ≠ primary) : split.classifier sql = true := by
  by_contra hread
  have hnot : split.classifier sql = false := by simpa using hread
  unfold routeSql route at h
  rw [hnot] at h
  exact h hp

end Pgferry
