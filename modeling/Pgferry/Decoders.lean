/-
  The two row decoders (`first_column_i128` of `scatter.rs`, `DataRowMut` of `intercept.rs`).

  `DataRowMut::parse` checks what is left before every read. `first_column_i128` reads the length
  and slices the value unchecked, and it never looks at `field_count`. `parse` in turn reserves
  room for `field_count` values before it looks at the sign.

  `DecimalI128` is the abstract reading of a number: an optional sign, decimal digits, a value that
  an `i128` holds. A row `Reads` as `v` when `parse` accepts its first field and the text of that
  field, trimmed, is such a number.

  Proved: `parseI128_iff`, the number parser follows `DecimalI128`; and `decoders_agree_iff`,
  neither decoder panics and both agree exactly on the rows whose bytes start with a complete
  field, whose `field_count` is not negative and, when it is zero, whose leading bytes are not a
  number.
-/
import Mathlib.Data.Nat.Digits.Defs
import Pgferry.Fields

namespace Pgferry

/-! ## Numbers -/

/-- A non-empty run of the digits 0 to 9. -/
def IsDecimal (digits : List Char) : Prop :=
  digits ≠ [] ∧ ∀ ch ∈ digits, '0' ≤ ch ∧ ch ≤ '9'

/-- The value of decimal digits, the most significant one first. -/
def decimalValue (digits : List Char) : Nat :=
  Nat.ofDigits 10 (digits.map fun ch => ch.toNat - '0'.toNat).reverse

/-- The text is an optional sign and decimal digits with the value `v`, which an `i128` holds. -/
def DecimalI128 (chars : List Char) (v : Int) : Prop :=
  (∃ digits, IsDecimal digits ∧
    ((chars = digits ∨ chars = '+' :: digits) ∧ v = decimalValue digits ∨
      chars = '-' :: digits ∧ v = -(decimalValue digits : Int))) ∧
    -2 ^ 127 ≤ v ∧ v < 2 ^ 127

theorem decimalValue_eq_foldl (digits : List Char) :
    decimalValue digits = digits.foldl (fun n ch => 10 * n + (ch.toNat - '0'.toNat)) 0 := by
  unfold decimalValue
  rw [Nat.ofDigits_eq_foldr, List.foldr_reverse, List.foldl_map]
  simp only [Nat.cast_id, Nat.add_comm]

theorem parseDigits_iff (digits : List Char) (n : Nat) :
    parseDigits digits = some n ↔ IsDecimal digits ∧ decimalValue digits = n := by
  unfold parseDigits IsDecimal
  rw [decimalValue_eq_foldl]
  simp only [List.all_eq_true, Bool.and_eq_true, decide_eq_true_eq]
  split
  case isTrue h =>
    rw [Option.some.injEq]
    exact ⟨fun hn => ⟨h, hn⟩, fun hn => hn.2⟩
  case isFalse h =>
    simp [h]

/-- Digits do not start with a sign. -/
theorem IsDecimal.head {ch : Char} {digits : List Char} (h : IsDecimal (ch :: digits)) :
    ch ≠ '+' ∧ ch ≠ '-' := by
  have hhead := h.2 ch List.mem_cons_self
  constructor
  · rintro rfl
    exact absurd hhead.1 (by decide)
  · rintro rfl
    exact absurd hhead.1 (by decide)

theorem parseI128_iff (chars : List Char) (v : Int) :
    parseI128 chars = some v ↔ DecimalI128 chars v := by
  unfold parseI128 DecimalI128
  rw [Option.filter_eq_some_iff, Bool.and_eq_true, decide_eq_true_eq, decide_eq_true_eq]
  refine and_congr_left fun _ => ?_
  split
  case h_1 rest =>
    simp only [bind_pure_comp, Option.map_eq_map, Option.map_map, Option.map_eq_some_iff,
      parseDigits_iff]
    constructor
    · rintro ⟨n, ⟨hdec, rfl⟩, rfl⟩
      exact ⟨rest, hdec, .inr ⟨rfl, rfl⟩⟩
    · rintro ⟨digits, hdec, ⟨rfl | heq, _⟩ | ⟨heq, rfl⟩⟩
      · exact absurd rfl hdec.head.2
      · cases heq
      · cases heq
        exact ⟨_, ⟨hdec, rfl⟩, rfl⟩
  case h_2 rest =>
    simp only [bind_pure_comp, Option.map_eq_map, Option.map_map, Option.map_eq_some_iff,
      parseDigits_iff]
    constructor
    · rintro ⟨n, ⟨hdec, rfl⟩, rfl⟩
      exact ⟨rest, hdec, .inl ⟨.inr rfl, rfl⟩⟩
    · rintro ⟨digits, hdec, ⟨rfl | heq, rfl⟩ | ⟨heq, _⟩⟩
      · exact absurd rfl hdec.head.1
      · cases heq
        exact ⟨_, ⟨hdec, rfl⟩, rfl⟩
      · cases heq
  case h_3 hminus hplus =>
    simp only [bind_pure_comp, Option.map_eq_map, Option.map_map, Option.map_eq_some_iff,
      parseDigits_iff]
    constructor
    · rintro ⟨n, ⟨hdec, rfl⟩, rfl⟩
      exact ⟨chars, hdec, .inl ⟨.inl rfl, rfl⟩⟩
    · rintro ⟨digits, hdec, ⟨rfl | heq, rfl⟩ | ⟨heq, _⟩⟩
      · exact ⟨_, ⟨hdec, rfl⟩, rfl⟩
      · exact absurd heq (hplus digits)
      · exact absurd heq (hminus digits)

/-- A value that is not NULL, is UTF-8 and, trimmed, reads as `v`. -/
def Numeral (value : Option (List UInt8)) (v : Int) : Prop :=
  ∃ bytes, value = some bytes ∧
    ∃ text, DataRowMut.fromUtf8 bytes = some text ∧ DecimalI128 (trim text.toList) v

/-! ## The row editor -/

namespace DataRowMut

/-- What `text` answers for a value. -/
def textOf (index : Nat) : Option (List UInt8) → Except RowError (Option String)
  | none => .ok none
  | some bytes =>
      match fromUtf8 bytes with
      | some text => .ok (some text)
      | none => .error (.binaryColumn index)

theorem text_of_contents {r : DataRowMut} {index : Nat} {value : Option (List UInt8)}
    (h : r.contents[index]? = some value) : r.text index = textOf index value := by
  unfold contents at h
  rw [List.getElem?_map] at h
  obtain ⟨slot, hslot, rfl⟩ := Option.map_eq_some_iff.mp h
  unfold text
  rw [hslot]
  cases slot with
  | none => rfl
  | some v => cases v <;> rfl

theorem textOf_eq_some {index : Nat} {value : Option (List UInt8)} {text : String} :
    textOf index value = .ok (some text) ↔
      ∃ bytes, value = some bytes ∧ fromUtf8 bytes = some text := by
  cases value with
  | none => simp [textOf]
  | some bytes =>
      unfold textOf
      cases hutf : fromUtf8 bytes <;> simp [hutf]

end DataRowMut

/-- The row with no field but its first one. -/
def DataRow.firstOnly (row : DataRow) : DataRow := { row with fieldCount := min row.fieldCount 1 }

/-- `parse` accepts the first field, and its text, trimmed, is a number with the value `v`. -/
def DataRow.Reads (row : DataRow) (v : Int) : Prop :=
  ∃ r text, DataRowMut.parse row.firstOnly = some (.ok r) ∧ r.text 0 = .ok (some text) ∧
    DecimalI128 (trim text.toList) v

/-- The first field of a row that has one. -/
theorem parse_firstOnly {row : DataRow} {value : Option (List UInt8)} (hcount : 1 ≤ row.fieldCount)
    (h : Framed 1 row.data [value]) :
    ∃ r, DataRowMut.parse row.firstOnly = some (.ok r) ∧ r.text 0 = DataRowMut.textOf 0 value := by
  have hone : row.firstOnly.fieldCount = 1 := min_eq_right hcount
  obtain ⟨r, hr, hcontents⟩ := DataRowMut.parse_of_framed row.firstOnly (by omega)
    (show Framed row.firstOnly.fieldCount.toNat row.data [value] by rw [hone]; exact h)
  refine ⟨r, hr, DataRowMut.text_of_contents ?_⟩
  rw [hcontents]
  rfl

theorem reads_iff {row : DataRow} {value : Option (List UInt8)} {v : Int}
    (hcount : 1 ≤ row.fieldCount) (h : Framed 1 row.data [value]) :
    row.Reads v ↔ Numeral value v := by
  obtain ⟨r, hr, htext⟩ := parse_firstOnly hcount h
  unfold DataRow.Reads Numeral
  constructor
  · rintro ⟨r', text, hr', ht, hdec⟩
    rw [hr] at hr'
    cases hr'
    rw [htext] at ht
    obtain ⟨bytes, hbytes, hutf⟩ := DataRowMut.textOf_eq_some.mp ht
    exact ⟨bytes, hbytes, text, hutf, hdec⟩
  · rintro ⟨bytes, hbytes, text, hutf, hdec⟩
    exact ⟨r, text, hr, htext.trans (DataRowMut.textOf_eq_some.mpr ⟨bytes, hbytes, hutf⟩), hdec⟩

/-- A row without fields has no first text. -/
theorem not_reads_of_empty {row : DataRow} {v : Int} (hcount : row.fieldCount = 0) :
    ¬ row.Reads v := by
  rintro ⟨r, text, hr, ht, -⟩
  have hzero : row.firstOnly.fieldCount = 0 := by
    show min row.fieldCount 1 = 0
    omega
  obtain ⟨-, -, hparse⟩ := DataRowMut.parse_framed (Int.le_of_eq hzero.symm)
  obtain ⟨-, -, hlength, -⟩ := hparse r hr
  rw [hzero] at hlength
  have hnil : r.values = [] := List.eq_nil_of_length_eq_zero hlength
  unfold DataRowMut.text at ht
  rw [hnil] at ht
  cases ht

/-! ## The scatter's decoder -/

/-- `first_column_i128` of bytes that start with a complete field. -/
theorem firstColumnI128_of_framed {row : DataRow} {value : Option (List UInt8)}
    (h : Framed 1 row.data [value]) :
    ∃ result, firstColumnI128 row = some result ∧ ∀ v, result = some v ↔ Numeral value v := by
  unfold firstColumnI128 Numeral
  generalize hdata : row.data = data at h
  cases h with
  | null hlen h =>
      refine ⟨none, if_pos hlen, fun v => iff_of_false (by simp) ?_⟩
      rintro ⟨bytes, hbytes, -⟩
      cases hbytes
  | @value _ a b c d rest _ bytes hlen h =>
      have hnat : (getI32 a b c d).toNat = bytes.length := by omega
      dsimp only
      rw [if_neg (by omega), hnat, List.length_append, if_neg (by omega), List.take_left]
      cases hutf : String.fromUTF8? ⟨bytes.toArray⟩ with
      | none =>
          refine ⟨none, rfl, fun v => iff_of_false (by simp) ?_⟩
          rintro ⟨bytes', hbytes, text, htext, -⟩
          cases hbytes
          rw [DataRowMut.fromUtf8, hutf] at htext
          cases htext
      | some text =>
          refine ⟨_, rfl, fun v => (parseI128_iff _ v).trans ⟨fun hdec => ?_, ?_⟩⟩
          · exact ⟨bytes, rfl, text, hutf, hdec⟩
          · rintro ⟨bytes', hbytes, text', htext, hdec⟩
            cases hbytes
            rw [DataRowMut.fromUtf8, hutf] at htext
            cases htext
            exact hdec

/-- `first_column_i128` panics on all other bytes. -/
theorem framed_of_firstColumnI128 {row : DataRow} {result : Option Int}
    (h : firstColumnI128 row = some result) : ∃ value, Framed 1 row.data [value] := by
  unfold firstColumnI128 at h
  split at h
  case h_1 a b c d rest hdata =>
    rw [hdata]
    dsimp only at h
    by_cases hneg : getI32 a b c d < 0
    · exact ⟨none, .null hneg (.done _)⟩
    · rw [if_neg hneg] at h
      by_cases hroom : rest.length < (getI32 a b c d).toNat
      · rw [if_pos hroom] at h
        cases h
      · have htake : (rest.take (getI32 a b c d).toNat).length = (getI32 a b c d).toNat := by
          rw [List.length_take]
          omega
        have hvalue := Framed.value (a := a) (b := b) (c := c) (d := d)
          (rest.take (getI32 a b c d).toNat) (by omega)
          (.done (rest.drop (getI32 a b c d).toNat))
        rw [List.take_append_drop] at hvalue
        exact ⟨_, hvalue⟩
  case h_2 => cases h

/-! ## Agreement -/

/-- Neither decoder panics, and `first_column_i128` returns `v` exactly when the first field of
    the row reads as `v`. -/
def DecodersAgree (row : DataRow) : Prop :=
  DataRowMut.parse row ≠ none ∧
    ∃ result, firstColumnI128 row = some result ∧ ∀ v, result = some v ↔ row.Reads v

/-- The count is not negative and the bytes start with a complete field; without a field in the
    count, these leading bytes are not a number. -/
def DataRow.LeadsWithField (row : DataRow) : Prop :=
  0 ≤ row.fieldCount ∧ ∃ value, Framed 1 row.data [value] ∧
    (row.fieldCount = 0 → ∀ v, ¬ Numeral value v)

theorem parse_ne_none_iff (row : DataRow) : DataRowMut.parse row ≠ none ↔ 0 ≤ row.fieldCount := by
  constructor
  · intro h
    by_contra hneg
    exact h (if_pos (by omega))
  · intro h
    exact (DataRowMut.parse_framed h).2.1

theorem decoders_agree_iff (row : DataRow) : DecodersAgree row ↔ row.LeadsWithField := by
  unfold DecodersAgree DataRow.LeadsWithField
  rw [parse_ne_none_iff]
  refine and_congr_right fun hcount => ?_
  constructor
  · rintro ⟨result, hresult, hreads⟩
    obtain ⟨value, hframed⟩ := framed_of_firstColumnI128 hresult
    obtain ⟨result', hresult', hnumeral⟩ := firstColumnI128_of_framed hframed
    rw [hresult] at hresult'
    cases hresult'
    refine ⟨value, hframed, fun hzero v hv => ?_⟩
    exact not_reads_of_empty hzero ((hreads v).mp ((hnumeral v).mpr hv))
  · rintro ⟨value, hframed, hzero⟩
    obtain ⟨result, hresult, hnumeral⟩ := firstColumnI128_of_framed hframed
    refine ⟨result, hresult, fun v => (hnumeral v).trans ?_⟩
    rcases Int.lt_or_le row.fieldCount 1 with hlt | hge
    · have hnone : row.fieldCount = 0 := by omega
      exact iff_of_false (hzero hnone v) (not_reads_of_empty hnone)
    · exact (reads_iff hge hframed).symm

/-- A row without columns, a row whose length runs past its end, a row with a negative count, and
    a row without columns whose bytes are a number. -/
theorem decoders_disagree :
    (firstColumnI128 { data := [], fieldCount := 0 } = none ∧
      ¬ DecodersAgree { data := [], fieldCount := 0 }) ∧
    (firstColumnI128 { data := [0, 0, 0, 2, 49], fieldCount := 1 } = none ∧
      ¬ DecodersAgree { data := [0, 0, 0, 2, 49], fieldCount := 1 }) ∧
    (DataRowMut.parse { data := [0, 0, 0, 1, 49], fieldCount := -1 } = none ∧
      ¬ DecodersAgree { data := [0, 0, 0, 1, 49], fieldCount := -1 }) ∧
    (firstColumnI128 { data := [0, 0, 0, 1, 49], fieldCount := 0 } = some (some 1) ∧
      ¬ DecodersAgree { data := [0, 0, 0, 1, 49], fieldCount := 0 }) := by
  have hpanic : ∀ row, firstColumnI128 row = none → ¬ DecodersAgree row := by
    rintro row h ⟨-, result, hresult, -⟩
    rw [h] at hresult
    cases hresult
  have h1 : firstColumnI128 { data := [], fieldCount := 0 } = none := rfl
  have h2 : firstColumnI128 { data := [0, 0, 0, 2, 49], fieldCount := 1 } = none := by decide
  have h3 : firstColumnI128 { data := [0, 0, 0, 1, 49], fieldCount := 0 } = some (some 1) := by
    decide
  refine ⟨⟨h1, hpanic _ h1⟩, ⟨h2, hpanic _ h2⟩, ⟨rfl, fun h => h.1 rfl⟩, h3, ?_⟩
  rintro ⟨-, result, hresult, hreads⟩
  rw [h3] at hresult
  cases hresult
  exact not_reads_of_empty rfl ((hreads 1).mp rfl)

end Pgferry
