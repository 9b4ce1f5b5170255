/-
  Editing a row keeps its framing (`DataRowMut` of `intercept.rs`).

  The abstract row is a list of values, each NULL or bytes. `Framed n bytes values` says that
  `bytes` start with `n` length-prefixed fields that hold `values`; a negative length is NULL.
  A parsed row refers to the original bytes by ranges, so what it stands for (`contents`) is read
  off from its slots and the bytes they point into. `Fits` is the invariant of a slot: a range lies
  within the bytes, and a value is shorter than 2^31 bytes, so that its length can be written.

  Proved: `parse` accepts exactly the rows that are framed and its slots fit (`parse_framed`);
  writing slots that fit and framing are inverse (`encode_framed`); an edited row reads back as
  the original values with the last edit of each index, and a row without edits keeps its bytes
  (`edits_round_trip`).
-/
import Mathlib.Data.List.Induction
import Pgferry.Row

namespace Pgferry

/-! ## Lengths -/

theorem getI32_lt (a b c d : UInt8) : getI32 a b c d < 2 ^ 31 := by
  have ha := a.toNat_lt
  have hb := b.toNat_lt
  have hc := c.toNat_lt
  have hd := d.toNat_lt
  unfold getI32
  dsimp only
  split <;> omega

/-- A 32-bit value is read back as it was written. -/
theorem getI32_putI32 (value : Int) (hlo : -2 ^ 31 ≤ value) (hhi : value < 2 ^ 31) :
    ∃ a b c d, putI32 value = [a, b, c, d] ∧ getI32 a b c d = value := by
  refine ⟨_, _, _, _, rfl, ?_⟩
  unfold getI32
  simp only [UInt8.toNat_ofNat']
  split <;> omega

/-! ## Framed bytes -/

/-- The bytes start with `n` length-prefixed fields that hold the values. -/
inductive Framed : Nat → List UInt8 → List (Option (List UInt8)) → Prop where
  | done (rest : List UInt8) : Framed 0 rest []
  | null {n : Nat} {a b c d : UInt8} {rest : List UInt8} {values : List (Option (List UInt8))}
      (hlen : getI32 a b c d < 0) (h : Framed n rest values) :
      Framed (n + 1) (a :: b :: c :: d :: rest) (none :: values)
  | value {n : Nat} {a b c d : UInt8} {rest : List UInt8} {values : List (Option (List UInt8))}
      (bytes : List UInt8) (hlen : getI32 a b c d = bytes.length) (h : Framed n rest values) :
      Framed (n + 1) (a :: b :: c :: d :: (bytes ++ rest)) (some bytes :: values)

namespace ValueSlot

/-- The bytes of a value, for a row with the bytes `data`. -/
def bytes (data : List UInt8) : ValueSlot → List UInt8
  | range offset len => (data.drop offset).take len
  | owned bytes => bytes

/-- A range lies within the bytes; the length of the value can be written. -/
def Fits (data : List UInt8) : ValueSlot → Prop
  | range offset len => offset + len ≤ data.length ∧ len < 2 ^ 31
  | owned bytes => bytes.length < 2 ^ 31

theorem range_length {data : List UInt8} {offset len : Nat} (h : offset + len ≤ data.length) :
    ((data.drop offset).take len).length = len := by
  rw [List.length_take, List.length_drop]
  omega

theorem Fits.length_lt {data : List UInt8} {v : ValueSlot} (h : v.Fits data) :
    (v.bytes data).length < 2 ^ 31 := by
  cases v with
  | range offset len =>
      rw [bytes, range_length h.1]
      exact h.2
  | owned bytes => exact h

end ValueSlot

namespace DataRowMut

/-- Every slot that is not NULL fits. -/
def SlotsFit (data : List UInt8) (slots : List (Option ValueSlot)) : Prop :=
  ∀ slot ∈ slots, ∀ v, slot = some v → v.Fits data

/-- The values that a parsed row stands for. -/
def contents (r : DataRowMut) : List (Option (List UInt8)) :=
  r.values.map (Option.map (ValueSlot.bytes r.row.data))

/-! ## Reading -/

/-- The loop of `parse` accepts framed bytes: its slots fit and refer to the values. -/
theorem parseFields_of_framed (fieldCount : Nat) {data cursor : List UInt8} {offset n : Nat}
    {values : List (Option (List UInt8))} (h : Framed n cursor values)
    (hat : data.drop offset = cursor) :
    ∃ slots, parseFields fieldCount n cursor offset = .ok slots ∧ SlotsFit data slots ∧
      slots.map (Option.map (ValueSlot.bytes data)) = values := by
  induction h generalizing offset with
  | done rest => exact ⟨[], rfl, by nofun, rfl⟩
  | @null n a b c d rest values hlen _ ih =>
      have hnext : data.drop (offset + 4) = rest := by
        rw [← List.drop_drop, hat]
        rfl
      obtain ⟨slots, hparse, hfit, hvalues⟩ := ih hnext
      refine ⟨none :: slots, ?_, ?_, ?_⟩
      · rw [parseFields, if_pos hlen, hparse]
      · rintro slot hslot v rfl
        rcases List.mem_cons.mp hslot with hv | hv
        · cases hv
        · exact hfit _ hv v rfl
      · rw [List.map_cons, hvalues]
        rfl
  | @value n a b c d rest values bytes hlen _ ih =>
      have hbody : data.drop (offset + 4) = bytes ++ rest := by
        rw [← List.drop_drop, hat]
        rfl
      have hnext : data.drop (offset + 4 + bytes.length) = rest := by
        rw [← List.drop_drop, hbody, List.drop_left]
      obtain ⟨slots, hparse, hfit, hvalues⟩ := ih hnext
      have htoNat : (getI32 a b c d).toNat = bytes.length := by omega
      have hsize : data.length - offset = 4 + bytes.length + rest.length := by
        rw [← List.length_drop, hat]
        simp only [List.length_cons, List.length_append]
        omega
      have hbound := getI32_lt a b c d
      refine ⟨some (.range (offset + 4) bytes.length) :: slots, ?_, ?_, ?_⟩
      · rw [parseFields, if_neg (by omega), htoNat, List.length_append, if_neg (by omega),
          List.drop_left, hparse]
      · rintro slot hslot v rfl
        rcases List.mem_cons.mp hslot with hv | hv
        · cases hv
          exact ⟨by omega, by omega⟩
        · exact hfit _ hv v rfl
      · rw [List.map_cons, hvalues, Option.map_some, ValueSlot.bytes, hbody, List.take_left]

/-- What the loop of `parse` accepts is framed. -/
theorem framed_of_parseFields {fieldCount n : Nat} {cursor : List UInt8} {offset : Nat}
    {slots : List (Option ValueSlot)} (h : parseFields fieldCount n cursor offset = .ok slots) :
    slots.length = n ∧ ∃ values, Framed n cursor values := by
  induction n generalizing cursor offset slots with
  | zero =>
      cases h
      exact ⟨rfl, [], .done _⟩
  | succ n ih =>
      match cursor with
      | [] | [_] | [_, _] | [_, _, _] => cases h
      | a :: b :: c :: d :: rest =>
          rw [parseFields] at h
          split at h
          case isTrue hneg =>
            split at h
            case h_1 => cases h
            case h_2 slots' hslots =>
              cases h
              obtain ⟨hlength, values, hframed⟩ := ih hslots
              exact ⟨congrArg (· + 1) hlength, none :: values, .null hneg hframed⟩
          case isFalse hneg =>
            split at h
            case isTrue => cases h
            case isFalse hroom =>
              split at h
              case h_1 => cases h
              case h_2 slots' hslots =>
                cases h
                obtain ⟨hlength, values, hframed⟩ := ih hslots
                have htake : (rest.take (getI32 a b c d).toNat).length =
                    (getI32 a b c d).toNat := by
                  rw [List.length_take]
                  omega
                have hvalue := Framed.value (a := a) (b := b) (c := c) (d := d)
                  (rest.take (getI32 a b c d).toNat) (by omega) hframed
                rw [List.take_append_drop] at hvalue
                exact ⟨congrArg (· + 1) hlength, _, hvalue⟩

/-- `parse` accepts exactly the framed rows, with slots that fit and stand for the values. -/
theorem parse_framed {row : DataRow} (h : 0 ≤ row.fieldCount) :
    ((∃ r, parse row = some (.ok r)) ↔ ∃ values, Framed row.fieldCount.toNat row.data values) ∧
      parse row ≠ none ∧
      ∀ r, parse row = some (.ok r) → r.row = row ∧ r.modified = false ∧
        r.values.length = row.fieldCount.toNat ∧ SlotsFit row.data r.values ∧
        Framed row.fieldCount.toNat row.data r.contents := by
  have hneg : ¬ row.fieldCount < 0 := by omega
  unfold parse
  rw [if_neg hneg]
  cases hp : parseFields row.fieldCount.toNat row.fieldCount.toNat row.data 0 with
  | error e =>
      refine ⟨⟨by simp, ?_⟩, by simp, by simp⟩
      rintro ⟨values, hframed⟩
      obtain ⟨slots, hslots, _⟩ := parseFields_of_framed row.fieldCount.toNat hframed
        List.drop_zero
      rw [hp] at hslots
      cases hslots
  | ok slots =>
      obtain ⟨hlength, values, hframed⟩ := framed_of_parseFields hp
      obtain ⟨slots', hslots, hfit, hvalues⟩ :=
        parseFields_of_framed row.fieldCount.toNat hframed List.drop_zero
      rw [hp] at hslots
      cases hslots
      refine ⟨⟨fun _ => ⟨values, hframed⟩, fun _ => ⟨_, rfl⟩⟩, by simp, fun r hr => ?_⟩
      cases hr
      refine ⟨rfl, rfl, hlength, hfit, ?_⟩
      rw [contents, hvalues]
      exact hframed

/-- A framed row is read as the values it holds. -/
theorem parse_of_framed (row : DataRow) (h : 0 ≤ row.fieldCount)
    {values : List (Option (List UInt8))} (hframed : Framed row.fieldCount.toNat row.data values) :
    ∃ r, parse row = some (.ok r) ∧ r.contents = values := by
  obtain ⟨slots, hslots, -, hvalues⟩ :=
    parseFields_of_framed row.fieldCount.toNat hframed List.drop_zero
  refine ⟨{ row := row, values := slots, modified := false }, ?_, hvalues⟩
  unfold parse
  rw [if_neg (by omega), hslots]

/-! ## Writing -/

/-- A value is written as its length and its bytes. -/
theorem encodeValue_some {data : List UInt8} {v : ValueSlot} (h : v.Fits data) :
    encodeValue data (some v) = putI32 (v.bytes data).length ++ v.bytes data := by
  cases v with
  | range offset len =>
      rw [ValueSlot.bytes, ValueSlot.range_length h.1]
      rfl
  | owned bytes => rfl

/-- The bytes that `apply` writes for slots that fit are framed and hold their values. -/
theorem encode_framed {data : List UInt8} {slots : List (Option ValueSlot)}
    (h : SlotsFit data slots) :
    Framed slots.length (slots.flatMap (encodeValue data))
      (slots.map (Option.map (ValueSlot.bytes data))) := by
  induction slots with
  | nil => exact .done _
  | cons slot slots ih =>
      have hrest := ih fun s hs => h s (List.mem_cons_of_mem _ hs)
      have hfit := h slot List.mem_cons_self
      rw [List.flatMap_cons]
      cases slot with
      | none =>
          obtain ⟨a, b, c, d, hput, hget⟩ := getI32_putI32 (-1) (by omega) (by omega)
          rw [encodeValue, hput]
          exact .null (by omega) hrest
      | some v =>
          have hlen := (hfit v rfl).length_lt
          obtain ⟨a, b, c, d, hput, hget⟩ := getI32_putI32 (v.bytes data).length (by omega)
            (by omega)
          rw [encodeValue_some (hfit v rfl), hput, List.append_assoc]
          exact .value (v.bytes data) hget hrest

end DataRowMut

/-! ## Edits -/

namespace RowEdit

def index : RowEdit → Nat
  | setText index _ => index
  | setNull index => index

/-- The value that the edit puts in place. -/
def value : RowEdit → Option (List UInt8)
  | setText _ value => some value.toUTF8.toList
  | setNull _ => none

/-- The value is shorter than 2^31 bytes. -/
def Short (e : RowEdit) : Prop := ∀ bytes, e.value = some bytes → bytes.length < 2 ^ 31

/-- The call as the interceptor sees it. -/
def attempt (r : DataRowMut) : RowEdit → Except RowError DataRowMut
  | setText index value => r.setText index value
  | setNull index => r.setNull index

/-- Whether some call of a sequence succeeds. -/
def anySucceeds (r : DataRowMut) : List RowEdit → Bool
  | [] => false
  | e :: edits => (e.attempt r).isOk || anySucceeds (e.perform r) edits

/-- The value of the last edit of an index. -/
def last (index : Nat) (edits : List RowEdit) : Option (Option (List UInt8)) :=
  ((edits.filter fun e => decide (e.index = index)).getLast?).map value

theorem perform_eq (r : DataRowMut) (e : RowEdit) :
    e.perform r = match e.attempt r with
      | .ok r => r
      | .error _ => r := by
  cases e <;> rfl

/-- A call out of range fails and changes nothing. -/
theorem attempt_outside {r : DataRowMut} {e : RowEdit} (h : r.values.length ≤ e.index) :
    e.attempt r = .error (.outOfRange e.index r.values.length) ∧ e.perform r = r := by
  have hattempt : e.attempt r = .error (.outOfRange e.index r.values.length) := by
    cases e <;> exact if_pos h
  refine ⟨hattempt, ?_⟩
  rw [perform_eq, hattempt]

/-- A call within range puts its value in place. -/
theorem attempt_inside {r : DataRowMut} {e : RowEdit} (h : e.index < r.values.length) :
    ∃ slot, slot.map (ValueSlot.bytes r.row.data) = e.value ∧
      (∀ v, slot = some v → ∃ bytes, v = .owned bytes ∧ e.value = some bytes) ∧
      e.attempt r = .ok { r with values := r.values.set e.index slot, modified := true } := by
  cases e with
  | setText index value =>
      refine ⟨some (.owned value.toUTF8.toList), rfl, ?_, if_neg (Nat.not_le.mpr h)⟩
      rintro v ⟨⟩
      exact ⟨_, rfl, rfl⟩
  | setNull index => exact ⟨none, rfl, by nofun, if_neg (Nat.not_le.mpr h)⟩

/-- An edit keeps the row it refers to and the number of values. -/
theorem perform_keeps (r : DataRowMut) (e : RowEdit) :
    (e.perform r).row = r.row ∧ (e.perform r).values.length = r.values.length := by
  by_cases h : e.index < r.values.length
  · obtain ⟨slot, -, -, hattempt⟩ := attempt_inside h
    rw [perform_eq, hattempt]
    exact ⟨rfl, List.length_set⟩
  · rw [(attempt_outside (Nat.not_lt.mp h)).2]
    exact ⟨rfl, rfl⟩

theorem foldl_keeps (r : DataRowMut) (edits : List RowEdit) :
    (edits.foldl perform r).row = r.row ∧
      (edits.foldl perform r).values.length = r.values.length := by
  induction edits generalizing r with
  | nil => exact ⟨rfl, rfl⟩
  | cons e edits ih =>
      obtain ⟨hrow, hlength⟩ := perform_keeps r e
      obtain ⟨hrow', hlength'⟩ := ih (e.perform r)
      exact ⟨hrow'.trans hrow, hlength'.trans hlength⟩

/-- Slots still fit after an edit with a short value. -/
theorem perform_fit {r : DataRowMut} {e : RowEdit} (hshort : e.Short)
    (hfit : DataRowMut.SlotsFit r.row.data r.values) :
    DataRowMut.SlotsFit r.row.data (e.perform r).values := by
  by_cases h : e.index < r.values.length
  · obtain ⟨slot, -, howned, hattempt⟩ := attempt_inside h
    rw [perform_eq, hattempt]
    rintro s hs v rfl
    rcases List.mem_or_eq_of_mem_set hs with hs | hs
    · exact hfit _ hs v rfl
    · obtain ⟨bytes, rfl, hbytes⟩ := howned v hs.symm
      exact hshort bytes hbytes
  · rw [(attempt_outside (Nat.not_lt.mp h)).2]
    exact hfit

theorem foldl_fit {r : DataRowMut} {edits : List RowEdit} (hshort : ∀ e ∈ edits, e.Short)
    (hfit : DataRowMut.SlotsFit r.row.data r.values) :
    DataRowMut.SlotsFit r.row.data (edits.foldl perform r).values := by
  induction edits generalizing r with
  | nil => exact hfit
  | cons e edits ih =>
      have hone := perform_fit (hshort e List.mem_cons_self) hfit
      rw [← (perform_keeps r e).1] at hone ⊢
      exact ih (fun e he => hshort e (List.mem_cons_of_mem _ he)) hone

/-- One edit changes the value at its index, if there is one. -/
theorem perform_contents (r : DataRowMut) (e : RowEdit) {i : Nat} (hi : i < r.values.length) :
    (e.perform r).contents[i]? = if e.index = i then some e.value else r.contents[i]? := by
  by_cases h : e.index < r.values.length
  · obtain ⟨slot, hvalue, -, hattempt⟩ := attempt_inside h
    rw [perform_eq, hattempt]
    unfold DataRowMut.contents
    dsimp only
    rw [List.map_set, hvalue]
    by_cases he : e.index = i
    · rw [if_pos he, he, List.getElem?_set_self (by rwa [List.length_map])]
    · rw [if_neg he, List.getElem?_set_ne he]
  · rw [(attempt_outside (Nat.not_lt.mp h)).2, if_neg (by omega)]

theorem last_concat (i : Nat) (edits : List RowEdit) (e : RowEdit) :
    last i (edits ++ [e]) = if e.index = i then some e.value else last i edits := by
  unfold last
  rw [List.filter_append]
  by_cases he : e.index = i
  · rw [if_pos he, List.filter_cons_of_pos (by simpa using he), List.filter_nil,
      List.getLast?_concat]
    rfl
  · rw [if_neg he, List.filter_cons_of_neg (by simpa using he), List.filter_nil, List.append_nil]

/-- A sequence of edits leaves the value of the last edit of each index. -/
theorem foldl_contents (r : DataRowMut) (edits : List RowEdit) {i : Nat}
    (hi : i < r.values.length) :
    (edits.foldl perform r).contents[i]? = (last i edits).or r.contents[i]? := by
  induction edits using List.reverseRecOn with
  | nil => rfl
  | append_singleton edits e ih =>
      rw [List.foldl_append, List.foldl_cons, List.foldl_nil,
        perform_contents _ _ (by rwa [(foldl_keeps r edits).2]), last_concat, ih]
      split
      · rfl
      · rfl

/-- A call succeeds exactly when its index is in range. -/
theorem attempt_isOk (r : DataRowMut) (e : RowEdit) :
    (e.attempt r).isOk = decide (e.index < r.values.length) := by
  by_cases h : e.index < r.values.length
  · obtain ⟨slot, -, -, hattempt⟩ := attempt_inside h
    rw [hattempt, decide_eq_true h]
    rfl
  · rw [(attempt_outside (Nat.not_lt.mp h)).1, decide_eq_false h]
    rfl

theorem foldl_modified (r : DataRowMut) (edits : List RowEdit) :
    (edits.foldl perform r).modified = (r.modified || anySucceeds r edits) := by
  induction edits generalizing r with
  | nil => rw [anySucceeds, Bool.or_false]; rfl
  | cons e edits ih =>
      rw [List.foldl_cons, ih, anySucceeds, attempt_isOk]
      by_cases h : e.index < r.values.length
      · obtain ⟨slot, -, -, hattempt⟩ := attempt_inside h
        rw [perform_eq, hattempt, decide_eq_true h]
        simp
      · rw [(attempt_outside (Nat.not_lt.mp h)).2, decide_eq_false h, Bool.false_or]

end RowEdit

open DataRowMut RowEdit in
/-- For every row with a field count that is not negative: `parse` does not panic and accepts
    exactly the framed rows, with ranges within the bytes. After any edits with short values, a
    row of which no edit succeeded keeps its bytes; any other one parses again, with the same
    field count, to the original values with the last edit of each index. A call out of range
    fails and changes nothing. -/
theorem edits_round_trip (row : DataRow) (h : 0 ≤ row.fieldCount) :
    parse row ≠ none ∧
      ((∃ r, parse row = some (.ok r)) ↔
        ∃ values, Framed row.fieldCount.toNat row.data values) ∧
      ∀ r, parse row = some (.ok r) →
        SlotsFit row.data r.values ∧ Framed row.fieldCount.toNat row.data r.contents ∧
        ∀ edits : List RowEdit, (∀ e ∈ edits, e.Short) →
          let edited := edits.foldl perform r
          (anySucceeds r edits = false → edited.apply = row) ∧
            (anySucceeds r edits = true → edited.apply.fieldCount = row.fieldCount ∧
              ∃ r', parse edited.apply = some (.ok r') ∧
                r'.contents.length = r.contents.length ∧
                ∀ i, i < r.contents.length →
                  r'.contents[i]? = (last i edits).or r.contents[i]?) ∧
            ∀ e : RowEdit, r.contents.length ≤ e.index →
              e.attempt edited = .error (.outOfRange e.index r.contents.length) ∧
                e.perform edited = edited := by
  obtain ⟨hiff, hpanic, hok⟩ := parse_framed h
  refine ⟨hpanic, hiff, fun r hr => ?_⟩
  obtain ⟨hrow, hmodified, hlength, hfit, hframed⟩ := hok r hr
  have hcontents : ∀ r : DataRowMut, r.contents.length = r.values.length :=
    fun r => List.length_map _
  refine ⟨hfit, hframed, fun edits hshort => ?_⟩
  obtain ⟨hrow', hlength'⟩ := foldl_keeps r edits
  have hmod := foldl_modified r edits
  rw [hmodified, Bool.false_or] at hmod
  refine ⟨fun hnone => ?_, fun hsome => ?_, fun e he => ?_⟩
  · unfold apply
    rw [hmod, hnone, if_neg Bool.false_ne_true, hrow', hrow]
  · have happly : (edits.foldl perform r).apply =
        { row with data := (edits.foldl perform r).values.flatMap (encodeValue row.data) } := by
      unfold apply
      rw [hmod, hsome, if_pos rfl, hrow', hrow]
    rw [happly]
    refine ⟨rfl, ?_⟩
    have hfit' := foldl_fit hshort (hrow ▸ hfit)
    rw [hrow] at hfit'
    have hencoded := encode_framed hfit'
    rw [hlength', hlength] at hencoded
    obtain ⟨r', hr', hvalues⟩ := parse_of_framed
      { row with data := (edits.foldl perform r).values.flatMap (encodeValue row.data) }
      h hencoded
    have hsame : r'.contents = (edits.foldl perform r).contents := by
      rw [hvalues]
      unfold contents
      rw [hrow', hrow]
    refine ⟨r', hr', ?_, fun i hi => ?_⟩
    · rw [hsame, hcontents, hcontents, hlength']
    · rw [hcontents] at hi
      rw [hsame, foldl_contents r edits hi]
  · rw [hcontents, ← hlength'] at he ⊢
    exact attempt_outside he

open DataRowMut RowEdit in
/-- A row with a text and a NULL, of which the text is overwritten. -/
theorem edits_round_trip_masked :
    let row : DataRow := { fieldCount := 2, data := [0, 0, 0, 1, 97, 255, 255, 255, 255] }
    let edits : List RowEdit := [.setText 0 "xy", .setNull 2]
    let r : DataRowMut := { row := row, values := [some (.range 4 1), none], modified := false }
    parse row = some (.ok r) ∧ ∃ r', parse (edits.foldl perform r).apply = some (.ok r') ∧
      r'.contents[0]? = some (some [120, 121]) ∧ r'.contents[1]? = some none := by
  intro row edits r
  have hshort : ∀ e ∈ edits, e.Short := by
    intro e he bytes hb
    rcases List.mem_cons.mp he with rfl | he
    · cases hb
      decide +kernel
    · rcases List.mem_singleton.mp he with rfl
      cases hb
  have hparse : parse row = some (.ok r) := by decide +kernel
  obtain ⟨-, -, hedits⟩ := (edits_round_trip row (by decide)).2.2 r hparse
  obtain ⟨-, r', hr', -, hvalues⟩ := (hedits edits hshort).2.1 (by decide)
  exact ⟨hparse, r', hr', (hvalues 0 (by decide)).trans (by decide +kernel),
    (hvalues 1 (by decide)).trans (by decide)⟩

end Pgferry
