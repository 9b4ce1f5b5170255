/-
  Rows (`RowSchema`, `DataRowMut` of `intercept.rs` and `first_column_i128` of `scatter.rs`).

  The bytes of a `DataRow` are length-prefixed fields. `DataRowMut.parse` records each field as
  a range of the original bytes; `apply` writes the row again when a value was rewritten. An
  interceptor changes a row with `setText` and `setNull` only, so its answer is a list of edits.
-/
import Pgferry.Wire

namespace Pgferry

structure ColumnMeta where
  name : String
  typeOid : Nat
  format : Int
  deriving DecidableEq, Repr

/-- The columns of the result set in effect. -/
structure RowSchema where
  columns : List ColumnMeta
  deriving DecidableEq, Repr

/-- `RowSchema::from_row_description`. -/
def RowSchema.fromRowDescription (fields : List FieldDescription) : RowSchema where
  columns := fields.map fun f => { name := f.name, typeOid := f.typeId, format := f.formatCode }

inductive RowError where
  | outOfRange (index columns : Nat)
  | binaryColumn (index : Nat)
  | null (index : Nat)
  deriving DecidableEq, Repr

inductive RowAction where
  | keep
  | drop
  deriving DecidableEq, Repr

/-- A value of a parsed row: a range of the original bytes or a rewritten value. -/
inductive ValueSlot where
  | range (offset len : Nat)
  | owned (bytes : List UInt8)
  deriving DecidableEq, Repr

structure DataRowMut where
  row : DataRow
  values : List (Option ValueSlot)
  modified : Bool
  deriving DecidableEq, Repr

/-- `get_i32` of four bytes, big endian in two's complement. -/
def getI32 (a b c d : UInt8) : Int :=
  let n : Nat := a.toNat * 2 ^ 24 + b.toNat * 2 ^ 16 + c.toNat * 2 ^ 8 + d.toNat
  if n < 2 ^ 31 then (n : Int) else (n : Int) - 2 ^ 32

/-- `put_i32` of a value taken modulo `2^32`. -/
def putI32 (value : Int) : List UInt8 :=
  let n := (value % 2 ^ 32).toNat
  [UInt8.ofNat (n / 2 ^ 24), UInt8.ofNat (n / 2 ^ 16), UInt8.ofNat (n / 2 ^ 8), UInt8.ofNat n]

namespace DataRowMut

/-- `usize::MAX`, the index that `parse` reports. -/
def usizeMax : Nat := 2 ^ 64 - 1

/-- The loop of `parse`: `count` fields from `cursor`, which starts at `offset`. -/
def parseFields (fieldCount : Nat) :
    Nat → List UInt8 → Nat → Except RowError (List (Option ValueSlot))
  | 0, _, _ => .ok []
  | count + 1, cursor, offset =>
      match cursor with
      | a :: b :: c :: d :: rest =>
          let len := getI32 a b c d
          if len < 0 then
            match parseFields fieldCount count rest (offset + 4) with
            | .error e => .error e
            | .ok values => .ok (none :: values)
          else if rest.length < len.toNat then .error (.outOfRange usizeMax fieldCount)
          else
            match parseFields fieldCount count (rest.drop len.toNat) (offset + 4 + len.toNat) with
            | .error e => .error e
            | .ok values => .ok (some (.range (offset + 4) len.toNat) :: values)
      | _ => .error (.outOfRange usizeMax fieldCount)

/-- `DataRowMut::parse`. `none` is a panic: `Vec::with_capacity` of a negative `field_count`
    cast to `usize` overflows. -/
def parse (row : DataRow) : Option (Except RowError DataRowMut) :=
  if row.fieldCount < 0 then none
  else
    match parseFields row.fieldCount.toNat row.fieldCount.toNat row.data 0 with
    | .error e => some (.error e)
    | .ok values => some (.ok { row := row, values := values, modified := false })

/-- `std::str::from_utf8` of a value. -/
def fromUtf8 (bytes : List UInt8) : Option String := String.fromUTF8? ⟨bytes.toArray⟩

/-- `DataRowMut::text`. -/
def text (r : DataRowMut) (index : Nat) : Except RowError (Option String) :=
  let decode (bytes : List UInt8) : Except RowError (Option String) :=
    match fromUtf8 bytes with
    | some text => .ok (some text)
    | none => .error (.binaryColumn index)
  match r.values[index]? with
  | none => .error (.outOfRange index r.values.length)
  | some none => .ok none
  | some (some (.owned bytes)) => decode bytes
  | some (some (.range offset len)) => decode ((r.row.data.drop offset).take len)

/-- `DataRowMut::set_text`. -/
def setText (r : DataRowMut) (index : Nat) (value : String) : Except RowError DataRowMut :=
  if r.values.length ≤ index then .error (.outOfRange index r.values.length)
  else
    .ok { r with
      values := r.values.set index (some (.owned value.toUTF8.toList))
      modified := true }

/-- `DataRowMut::set_null`. -/
def setNull (r : DataRowMut) (index : Nat) : Except RowError DataRowMut :=
  if r.values.length ≤ index then .error (.outOfRange index r.values.length)
  else .ok { r with values := r.values.set index none, modified := true }

/-- The bytes that `apply` writes for one value. -/
def encodeValue (data : List UInt8) : Option ValueSlot → List UInt8
  | some (.range offset len) => putI32 len ++ (data.drop offset).take len
  | some (.owned bytes) => putI32 bytes.length ++ bytes
  | none => putI32 (-1)

/-- `DataRowMut::apply`. -/
def apply (r : DataRowMut) : DataRow :=
  if r.modified then { r.row with data := r.values.flatMap (encodeValue r.row.data) } else r.row

end DataRowMut

/-- A call that an interceptor makes on the row. -/
inductive RowEdit where
  | setText (index : Nat) (value : String)
  | setNull (index : Nat)
  deriving DecidableEq, Repr

/-- A call that fails leaves the row as it was. -/
def RowEdit.perform (r : DataRowMut) : RowEdit → DataRowMut
  | .setText index value =>
      match r.setText index value with
      | .ok r => r
      | .error _ => r
  | .setNull index =>
      match r.setNull index with
      | .ok r => r
      | .error _ => r

/-- Unicode `White_Space`, which `str::trim` strips. -/
def isWhiteSpace (ch : Char) : Bool :=
  let n := ch.toNat
  (9 ≤ n && n ≤ 13) || n == 32 || n == 0x85 || n == 0xA0 || n == 0x1680 ||
    (0x2000 ≤ n && n ≤ 0x200A) || n == 0x2028 || n == 0x2029 || n == 0x202F || n == 0x205F ||
    n == 0x3000

/-- `str::trim`, on the characters of the text. -/
def trim (chars : List Char) : List Char :=
  ((chars.dropWhile isWhiteSpace).reverse.dropWhile isWhiteSpace).reverse

/-- The value of a non-empty run of decimal digits. -/
def parseDigits (chars : List Char) : Option Nat :=
  if chars ≠ [] ∧ chars.all (fun ch => '0' ≤ ch && ch ≤ '9') then
    some (chars.foldl (fun n ch => 10 * n + (ch.toNat - '0'.toNat)) 0)
  else none

/-- `str::parse::<i128>`: an optional sign and digits, within the range of the type. -/
def parseI128 (chars : List Char) : Option Int :=
  let value : Option Int := match chars with
    | '-' :: rest => (parseDigits rest).map fun n => -(n : Int)
    | '+' :: rest => (parseDigits rest).map fun n => (n : Int)
    | rest => (parseDigits rest).map fun n => (n : Int)
  value.filter fun v => decide (-2 ^ 127 ≤ v) && decide (v < 2 ^ 127)

/-- `first_column_i128`. The outer `none` is a panic: `get_i32` on fewer than four bytes, or a
    slice past the end of the row. -/
def firstColumnI128 (row : DataRow) : Option (Option Int) :=
  match row.data with
  | a :: b :: c :: d :: rest =>
      let len := getI32 a b c d
      if len < 0 then some none
      else if rest.length < len.toNat then none
      else
        match String.fromUTF8? ⟨(rest.take len.toNat).toArray⟩ with
        | none => some none
        | some text => some (parseI128 (trim text.toList))
  | _ => none

end Pgferry
