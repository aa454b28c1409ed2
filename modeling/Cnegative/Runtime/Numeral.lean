import Cnegative.Library.Decimal
import Cnegative.Runtime.CString

namespace Cnegative

namespace Numeral

open CString

/-! `std.parse.to_int` and `std.strings.from_int`. -/

def minus : UInt8 := 45
def plus : UInt8 := 43

/-- The loop of `cn_parse_int`, over the bytes from the index on. -/
def parseLoop : Text → BitVec 64 → Option (BitVec 64)
  | [], acc => some acc
  | char :: rest, acc =>
      if 48 ≤ char ∧ char ≤ 57 then
        parseLoop rest (acc * 10 + BitVec.ofNat 64 (char - 48).toNat)
      else none

/-- The block `finish`. -/
def finish (negative : Bool) (acc : BitVec 64) : BitVec 64 := if negative then 0 - acc else acc

/-- `cn_parse_int`; `none` is err. -/
def parseInt (value : CString) : Option (BitVec 64) :=
  let first := value.byteAt 0
  if first = 0 then none
  else if first = minus then
    if value.byteAt 1 ≠ 0 then (parseLoop (value.bytes.drop 1) 0).map (finish true) else none
  else if first = plus then
    if value.byteAt 1 ≠ 0 then (parseLoop (value.bytes.drop 1) 0).map (finish false) else none
  else (parseLoop value.bytes 0).map (finish false)

/-- What `snprintf` prints for `%lld`. -/
abbrev Print := BitVec 64 → CString

/-- `cn_from_int`, with a buffer of 32 bytes. -/
def fromInt (malloc : Malloc) (print : Print) (value : BitVec 64) : CString :=
  let buffer := (print value).take 31
  let written := (print value).strlen
  dupRange malloc buffer written

/-! What a string denotes. -/

def isDigit (char : UInt8) : Bool := decide (48 ≤ char) && decide (char ≤ 57)

def digitOf (char : UInt8) : Nat := (char - 48).toNat

def decimal? (text : Text) : Option Nat :=
  if text ≠ [] ∧ text.all isDigit = true then some (Library.Decimal.value (text.map digitOf))
  else none

/-- An optional sign and one or more digits. -/
def denoted? : Text → Option Int
  | [] => none
  | char :: rest =>
      if char = minus then (decimal? rest).map fun number : Nat => -(number : Int)
      else if char = plus then (decimal? rest).map fun number : Nat => (number : Int)
      else (decimal? (char :: rest)).map fun number : Nat => (number : Int)

def word? (number : Int) : Option (BitVec 64) :=
  if -2 ^ 63 ≤ number ∧ number < 2 ^ 63 then some (BitVec.ofInt 64 number) else none

def shortest (number : Int) : Text :=
  let digits := (Library.Decimal.digits number.natAbs).map fun digit => UInt8.ofNat (48 + digit)
  if number < 0 then minus :: digits else digits

/-! The loop reads the digits modulo 2^64. -/

theorem parseLoop_eq (text : Text) (acc : BitVec 64) :
    parseLoop text acc = if text.all isDigit = true then
      some ((text.map digitOf).foldl (fun acc digit => acc * 10 + BitVec.ofNat 64 digit) acc)
      else none := by
  induction text generalizing acc with
  | nil => rfl
  | cons char text ih =>
      rw [parseLoop, List.all_cons, List.map_cons, List.foldl_cons]
      by_cases hdigit : 48 ≤ char ∧ char ≤ 57
      · have htrue : isDigit char = true := by simpa [isDigit] using hdigit
        rw [if_pos hdigit, ih, htrue, Bool.true_and]
        rfl
      · have hfalse : isDigit char = false := by
          rw [← Bool.not_eq_true]
          simpa [isDigit] using hdigit
        rw [if_neg hdigit, hfalse, Bool.false_and, if_neg (by simp)]

theorem parseLoop_decimal {text : Text} (hne : text ≠ []) :
    parseLoop text 0 = (decimal? text).map fun number => BitVec.ofNat 64 number := by
  rw [parseLoop_eq, decimal?, Library.Decimal.foldl_ofNat]
  by_cases hall : text.all isDigit = true
  · rw [if_pos hall, if_pos ⟨hne, hall⟩, Option.map_some]
  · rw [if_neg hall, if_neg fun h => hall h.2, Option.map_none]

/-- Whatever the string denotes is read modulo 2^64. -/
theorem parseInt_eq (value : CString) :
    parseInt value = (denoted? value.bytes).map (BitVec.ofInt 64) := by
  cases hbytes : value.bytes with
  | nil =>
      have hzero : value.byteAt 0 = 0 := (value.byteAt_eq_zero_iff 0).mpr (by simp [hbytes])
      simp only [parseInt, hzero, if_true, denoted?, Option.map_none]
  | cons first rest =>
      have hfirst : value.byteAt 0 = first := by
        rw [byteAt, Lex.byteAt, hbytes]
        rfl
      have hne : first ≠ 0 := value.nulFree first (by simp [hbytes])
      have hsecond : value.byteAt 1 ≠ 0 ↔ rest ≠ [] := by
        rw [Ne, value.byteAt_eq_zero_iff, hbytes, List.length_cons]
        cases rest <;> simp
      have hempty : decimal? [] = none := rfl
      have hdrop : (first :: rest).drop 1 = rest := rfl
      simp only [parseInt, hfirst, if_neg hne, hsecond, hbytes, denoted?, hdrop]
      by_cases hminus : first = minus
      · rw [if_pos hminus, if_pos hminus]
        by_cases hrest : rest = []
        · rw [if_neg (not_not.mpr hrest), hrest, hempty]
          rfl
        · rw [if_pos hrest, parseLoop_decimal hrest, Option.map_map, Option.map_map]
          congr 1
          funext number
          simp [finish, BitVec.ofInt_neg]
      · rw [if_neg hminus, if_neg hminus]
        by_cases hplus : first = plus
        · rw [if_pos hplus, if_pos hplus]
          by_cases hrest : rest = []
          · rw [if_neg (not_not.mpr hrest), hrest, hempty]
            rfl
          · rw [if_pos hrest, parseLoop_decimal hrest, Option.map_map, Option.map_map]
            congr 1
        · rw [if_neg hplus, if_neg hplus, parseLoop_decimal (by simp), Option.map_map,
            Option.map_map]
          congr 1

/-! The shortest form is read back. -/

theorem isDigit_ofNat {digit : Nat} (hdigit : digit < 10) :
    isDigit (UInt8.ofNat (48 + digit)) = true ∧ digitOf (UInt8.ofNat (48 + digit)) = digit := by
  interval_cases digit <;> decide

theorem decimal?_digits (number : Nat) :
    decimal? ((Library.Decimal.digits number).map fun digit => UInt8.ofNat (48 + digit)) =
      some number := by
  have hall : ∀ digit ∈ Library.Decimal.digits number, digit < 10 := fun _ hdigit =>
    Library.Decimal.digit_lt hdigit
  have hmap : ((Library.Decimal.digits number).map fun digit => UInt8.ofNat (48 + digit)).map
      digitOf = Library.Decimal.digits number := by
    rw [List.map_map]
    conv_rhs => rw [← List.map_id (Library.Decimal.digits number)]
    exact List.map_congr_left fun digit hdigit => (isDigit_ofNat (hall digit hdigit)).2
  rw [decimal?, if_pos, hmap, Library.Decimal.value_digits]
  refine ⟨by simpa using Library.Decimal.digits_ne_nil number, ?_⟩
  rw [List.all_map, List.all_eq_true]
  exact fun digit hdigit => (isDigit_ofNat (hall digit hdigit)).1

theorem denoted?_shortest (number : Int) : denoted? (shortest number) = some number := by
  have hdecimal := decimal?_digits number.natAbs
  unfold shortest
  dsimp only
  split
  · rename_i hneg
    rw [denoted?, if_pos rfl, hdecimal, Option.map_some, Option.some.injEq]
    omega
  · rename_i hnonneg
    cases hdigits : Library.Decimal.digits number.natAbs with
    | nil => exact absurd hdigits (Library.Decimal.digits_ne_nil _)
    | cons digit rest =>
        have hlt : digit < 10 := Library.Decimal.digit_lt (hdigits ▸ List.mem_cons_self)
        have hsign : UInt8.ofNat (48 + digit) ≠ minus ∧ UInt8.ofNat (48 + digit) ≠ plus := by
          interval_cases digit <;> decide
        rw [hdigits, List.map_cons] at hdecimal
        rw [List.map_cons, denoted?, if_neg hsign.1, if_neg hsign.2, hdecimal, Option.map_some,
          Option.some.injEq]
        omega

theorem shortest_nulFree (number : Int) : ∀ ch ∈ shortest number, ch ≠ 0 := by
  have hdigits : ∀ ch ∈ (Library.Decimal.digits number.natAbs).map fun digit =>
      UInt8.ofNat (48 + digit), ch ≠ 0 := by
    intro ch hch
    obtain ⟨digit, hdigit, rfl⟩ := List.mem_map.mp hch
    have hlt := Library.Decimal.digit_lt hdigit
    interval_cases digit <;> decide
  intro ch hch
  unfold shortest at hch
  dsimp only at hch
  split at hch
  · rcases List.mem_cons.mp hch with rfl | hrest
    · decide
    · exact hdigits ch hrest
  · exact hdigits ch hch

theorem length_shortest (value : BitVec 64) : (shortest value.toInt).length ≤ 20 := by
  have hlow : -2 ^ 63 ≤ value.toInt := BitVec.le_toInt value
  have hhigh : value.toInt < 2 ^ 63 := BitVec.toInt_lt
  have hdigits : (Library.Decimal.digits value.toInt.natAbs).length ≤ 19 :=
    Library.Decimal.length_digits_le (by decide) (by omega)
  unfold shortest
  dsimp only
  split
  · rw [List.length_cons, List.length_map]
    omega
  · rw [List.length_map]
    omega

theorem parseInt_fromInt {malloc : Malloc} (hmalloc : ∀ size, malloc size = true) {print : Print}
    (hprint : ∀ value, (print value).bytes = shortest value.toInt) (value : BitVec 64) :
    parseInt (fromInt malloc print value) = some value := by
  have hlength := length_shortest value
  have hbytes : (fromInt malloc print value).bytes = shortest value.toInt := by
    rw [fromInt, dupRange, if_pos (hmalloc _), bytes_take, bytes_take, strlen, hprint,
      List.take_take, List.take_of_length_le (by omega)]
  rw [parseInt_eq, hbytes, denoted?_shortest, Option.map_some, BitVec.ofInt_toInt]

/-! When the result is exact. -/

/-- The number that the string denotes, if it denotes one that fits, and err otherwise. -/
def Exact (value : CString) : Prop := parseInt value = (denoted? value.bytes).bind word?

/-- No numeral, or one whose number fits. -/
def FitsWord (text : Text) : Prop :=
  ∀ number, denoted? text = some number → -2 ^ 63 ≤ number ∧ number < 2 ^ 63

theorem to_int_exact_iff (value : CString) (malloc : Malloc)
    (hmalloc : ∀ size, malloc size = true) (print : Print)
    (hprint : ∀ value, (print value).bytes = shortest value.toInt) :
    (Exact value ↔ FitsWord value.bytes) ∧
      ∀ number, parseInt (fromInt malloc print number) = some number := by
  refine ⟨?_, parseInt_fromInt hmalloc hprint⟩
  rw [Exact, FitsWord, parseInt_eq]
  cases denoted? value.bytes with
  | none => simp
  | some number =>
      simp only [Option.map_some, Option.bind_some, word?, Option.some.injEq, forall_eq']
      split
      · rename_i hfits
        exact iff_of_true rfl hfits
      · rename_i hfits
        exact iff_of_false (by simp) hfits

/-- With memory for every request, and `%lld` as documented: `-12` is exact. -/
theorem to_int_exact_sample :
    (Exact ⟨[45, 49, 50], by decide +kernel⟩ ↔ FitsWord [45, 49, 50]) ∧
      ∀ number, parseInt (fromInt (fun _ => true)
        (fun value => ⟨shortest value.toInt, shortest_nulFree value.toInt⟩) number) =
          some number :=
  to_int_exact_iff ⟨[45, 49, 50], by decide +kernel⟩ (fun _ => true) (fun _ => rfl)
    (fun value => ⟨shortest value.toInt, shortest_nulFree value.toInt⟩) fun _ => rfl

/-- `9223372036854775808` is read as the minimum. -/
theorem large_numeral_wraps :
    ¬ (∀ value, Exact value) ∧
      parseInt ⟨[57, 50, 50, 51, 51, 55, 50, 48, 51, 54, 56, 53, 52, 55, 55, 53, 56, 48, 56],
        by decide +kernel⟩ = some (BitVec.intMin 64) := by
  have hdenoted : denoted? [57, 50, 50, 51, 51, 55, 50, 48, 51, 54, 56, 53, 52, 55, 55, 53, 56,
      48, 56] = some 9223372036854775808 := by
    decide +kernel
  have hparse : parseInt ⟨[57, 50, 50, 51, 51, 55, 50, 48, 51, 54, 56, 53, 52, 55, 55, 53, 56, 48,
      56], by decide +kernel⟩ = some (BitVec.intMin 64) := by
    rw [parseInt_eq, hdenoted]
    decide
  refine ⟨fun hexact => ?_, hparse⟩
  have hvalue := hexact ⟨[57, 50, 50, 51, 51, 55, 50, 48, 51, 54, 56, 53, 52, 55, 55, 53, 56, 48,
    56], by decide +kernel⟩
  rw [Exact, hparse, hdenoted] at hvalue
  exact absurd hvalue (by decide +kernel)

end Numeral

end Cnegative
