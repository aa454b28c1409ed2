import Mathlib.Data.List.Induction
import Cnegative.Runtime.CString

namespace Cnegative

namespace Path

open CString

/-! `std.path`. -/

def dot : UInt8 := 46

def isSep (ch : UInt8) : Bool := ch == 47 || ch == 92

inductive Platform where
  | posix | windows
  deriving DecidableEq, Repr

def Platform.separator : Platform → UInt8
  | .posix => 47
  | .windows => 92

/-- The one byte that `store.sep` writes. -/
def Platform.separatorText (platform : Platform) : CString :=
  ⟨[platform.separator], by cases platform <;> decide +kernel⟩

def join (platform : Platform) (malloc : Malloc) (left right : CString) : CString :=
  let leftLen := left.strlen
  let rightLen := right.strlen
  if leftLen = 0 then dupCstr malloc right
  else if rightLen = 0 then dupCstr malloc left
  else
    let leftSep := isSep (left.byteAt (leftLen - 1))
    let rightSep := isSep (right.byteAt 0)
    let skipRight := leftSep && rightSep
    let addSep := !leftSep && !rightSep
    let rightCopyLen := rightLen - skipRight.toNat
    if malloc (leftLen + rightCopyLen + addSep.toNat + 1) then
      let copied := if addSep then left.append platform.separatorText else left
      copied.append ((right.drop skipRight.toNat).take rightCopyLen)
    else empty

/-- The loop of `cn_path_file_name`, over the bytes from the cursor on. -/
def fileNameLoop : Text → Nat → Nat → Nat
  | [], _, start => start
  | ch :: rest, cursor, start =>
      fileNameLoop rest (cursor + 1) (if isSep ch then cursor + 1 else start)

def fileName (malloc : Malloc) (path : CString) : CString :=
  dupCstr malloc (path.drop (fileNameLoop path.bytes 0 0))

/-- The loop that `cn_path_stem` and `cn_path_extension` share. -/
def dotLoop : Text → Nat → Nat → Option Nat → Nat × Option Nat
  | [], _, start, lastDot => (start, lastDot)
  | ch :: rest, cursor, start, lastDot =>
      if isSep ch then dotLoop rest (cursor + 1) (cursor + 1) none
      else if ch = dot then dotLoop rest (cursor + 1) start (some cursor)
      else dotLoop rest (cursor + 1) start lastDot

/-- `check.valid.dot`: the dot neither begins nor ends the name. -/
def dotValid (path : CString) (start lastDot : Nat) : Bool :=
  !(start == lastDot) && !(path.byteAt (lastDot + 1) == 0)

def stem (malloc : Malloc) (path : CString) : CString :=
  match dotLoop path.bytes 0 0 none with
  | (start, some lastDot) =>
      if dotValid path start lastDot then dupRange malloc (path.drop start) (lastDot - start)
      else dupCstr malloc (path.drop start)
  | (start, none) => dupCstr malloc (path.drop start)

def extension (malloc : Malloc) (path : CString) : CString :=
  match dotLoop path.bytes 0 0 none with
  | (start, some lastDot) =>
      if dotValid path start lastDot then dupCstr malloc (path.drop (lastDot + 1))
      else dupRange malloc path 0
  | (_, none) => dupRange malloc path 0

def isAbsolute (path : CString) : Bool :=
  let first := path.byteAt 0
  if isSep first then true
  else if isAsciiAlpha first then
    if path.byteAt 1 = 58 then isSep (path.byteAt 2) else false
  else false

def parentLoop : Text → Nat → Option Nat → Option Nat
  | [], _, lastSep => lastSep
  | ch :: rest, cursor, lastSep =>
      parentLoop rest (cursor + 1) (if isSep ch then some cursor else lastSep)

/-- `cn_path_parent`; `none` is err. -/
def parent (malloc : Malloc) (path : CString) : Option CString :=
  match parentLoop path.bytes 0 none with
  | none => none
  | some length =>
      if length = 0 then some (dupRange malloc path 1) else some (dupRange malloc path length)

/-! What the loops find. -/

theorem fileNameLoop_append (left right : Text) (cursor start : Nat) :
    fileNameLoop (left ++ right) cursor start =
      fileNameLoop right (cursor + left.length) (fileNameLoop left cursor start) := by
  induction left generalizing cursor start with
  | nil => rfl
  | cons ch left ih =>
      rw [List.cons_append, fileNameLoop, ih, fileNameLoop, List.length_cons]
      congr 1
      omega

theorem fileNameLoop_shift (text : Text) (cursor start shift : Nat) :
    fileNameLoop text (shift + cursor) (shift + start) = shift + fileNameLoop text cursor start := by
  induction text generalizing cursor start with
  | nil => rfl
  | cons ch text ih =>
      rw [fileNameLoop, fileNameLoop, ← ih, Nat.add_assoc]
      congr 1
      split <;> rfl

/-- Behind a separator the name begins anew. -/
theorem fileNameLoop_of_last {text : Text} {ch : UInt8} (hsep : isSep ch = true) :
    fileNameLoop (text ++ [ch]) 0 0 = (text ++ [ch]).length := by
  rw [fileNameLoop_append, fileNameLoop, fileNameLoop, if_pos hsep, List.length_append,
    List.length_singleton, Nat.zero_add]

theorem parentLoop_append (left right : Text) (cursor : Nat) (lastSep : Option Nat) :
    parentLoop (left ++ right) cursor lastSep =
      parentLoop right (cursor + left.length) (parentLoop left cursor lastSep) := by
  induction left generalizing cursor lastSep with
  | nil => rfl
  | cons ch left ih =>
      rw [List.cons_append, parentLoop, ih, parentLoop, List.length_cons]
      congr 1
      omega

theorem parentLoop_of_plain {text : Text} (hplain : ∀ ch ∈ text, isSep ch = false) (cursor : Nat)
    (lastSep : Option Nat) : parentLoop text cursor lastSep = lastSep := by
  induction text generalizing cursor with
  | nil => rfl
  | cons ch text ih =>
      rw [parentLoop, hplain ch (by simp), if_neg (by simp)]
      exact ih (fun other hother => hplain other (List.mem_cons_of_mem _ hother)) _

/-- A dot that was seen stands in the name. -/
def DotIn (text : Text) (start : Nat) : Option Nat → Prop
  | none => True
  | some lastDot => start ≤ lastDot ∧ text[lastDot]? = some dot

theorem dotLoop_spec (text seen : Text) (start : Nat) (lastDot : Option Nat)
    (hdot : DotIn (seen ++ text) start lastDot) (hstart : start ≤ seen.length) :
    (dotLoop text seen.length start lastDot).1 = fileNameLoop text seen.length start ∧
      DotIn (seen ++ text) (dotLoop text seen.length start lastDot).1
        (dotLoop text seen.length start lastDot).2 := by
  induction text generalizing seen start lastDot with
  | nil => exact ⟨rfl, hdot⟩
  | cons ch text ih =>
      have hsplit : seen ++ ch :: text = (seen ++ [ch]) ++ text := by simp
      have hlength : seen.length + 1 = (seen ++ [ch]).length := by simp
      rw [hsplit] at hdot ⊢
      rw [dotLoop, fileNameLoop]
      split
      · rw [hlength]
        exact ih (seen ++ [ch]) _ none trivial (Nat.le_refl _)
      · split
        · rename_i hch
          rw [hlength]
          refine ih (seen ++ [ch]) start (some seen.length) ⟨hstart, ?_⟩ (by omega)
          simp [hch]
        · rw [hlength]
          exact ih (seen ++ [ch]) start lastDot hdot (by omega)

theorem dotLoop_path (path : CString) :
    (dotLoop path.bytes 0 0 none).1 = fileNameLoop path.bytes 0 0 ∧
      DotIn path.bytes (dotLoop path.bytes 0 0 none).1 (dotLoop path.bytes 0 0 none).2 :=
  dotLoop_spec path.bytes [] 0 none trivial (Nat.le_refl _)

/-! The equations. -/

theorem eq_append_last {path : CString} (hne : path.bytes ≠ []) :
    ∃ front, path.bytes = front ++ [path.byteAt (path.strlen - 1)] := by
  have hpos := List.length_pos_iff.mpr hne
  refine ⟨path.bytes.take (path.bytes.length - 1), ?_⟩
  have hdrop := @drop_eq_cons path (path.bytes.length - 1) (by omega)
  rw [Nat.sub_add_cancel hpos, List.drop_length] at hdrop
  rw [strlen, ← hdrop, List.take_append_drop]

section Algebra

variable {malloc : Malloc} (hmalloc : ∀ size, malloc size = true)

include hmalloc

theorem dupCstr_eq (src : CString) : dupCstr malloc src = src := by
  rw [dupCstr, if_pos (hmalloc _)]

theorem dupRange_eq (src : CString) (len : Nat) : dupRange malloc src len = src.take len := by
  rw [dupRange, if_pos (hmalloc _)]

theorem name_parts (path : CString) :
    (extension malloc path).bytes ≠ [] ∧
        (fileName malloc path).bytes =
          (stem malloc path).bytes ++ dot :: (extension malloc path).bytes ∨
      (extension malloc path).bytes = [] ∧ stem malloc path = fileName malloc path := by
  obtain ⟨hstart, hdot⟩ := dotLoop_path path
  unfold extension stem fileName
  rw [← hstart]
  cases hfound : dotLoop path.bytes 0 0 none with
  | mk start lastDot =>
      rw [hfound] at hdot
      cases lastDot with
      | none => exact Or.inr ⟨by rw [dupRange_eq hmalloc]; rfl, rfl⟩
      | some lastDot =>
          obtain ⟨hle, hbyte⟩ := hdot
          dsimp only
          cases hvalid : dotValid path start lastDot with
          | false => exact Or.inr ⟨by rw [dupRange_eq hmalloc]; rfl, by simp⟩
          | true =>
              simp only [dotValid, Bool.and_eq_true, Bool.not_eq_true', beq_eq_false_iff_ne]
                at hvalid
              obtain ⟨hlt, hdotByte⟩ := List.getElem?_eq_some_iff.mp hbyte
              have hafter := mt (path.byteAt_eq_zero_iff (lastDot + 1)).mpr hvalid.2
              refine Or.inl ?_
              rw [if_pos rfl, if_pos rfl, dupCstr_eq hmalloc, dupCstr_eq hmalloc,
                dupRange_eq hmalloc]
              constructor
              · rw [bytes_drop, Ne, List.drop_eq_nil_iff]
                exact hafter
              · have hsplit := List.take_append_drop (lastDot - start) (path.bytes.drop start)
                rw [List.drop_drop, Nat.add_sub_cancel' hle,
                  List.drop_eq_getElem_cons hlt, hdotByte] at hsplit
                exact hsplit.symm

theorem fileName_append {left right : CString}
    (hleft : fileNameLoop left.bytes 0 0 = left.bytes.length) :
    fileName malloc (left.append right) = fileName malloc right := by
  apply CString.ext
  have hshift := fileNameLoop_shift right.bytes 0 0 left.bytes.length
  rw [Nat.add_zero] at hshift
  rw [fileName, fileName, dupCstr_eq hmalloc, dupCstr_eq hmalloc, bytes_drop, bytes_drop,
    bytes_append, fileNameLoop_append, hleft, Nat.zero_add, hshift, ← List.drop_drop,
    List.drop_left]

theorem fileName_join (platform : Platform) {left right : CString} (hright : right.bytes ≠ [])
    (hrelative : isAbsolute right = false) :
    fileName malloc (join platform malloc left right) = fileName malloc right := by
  have hfirst : isSep (right.byteAt 0) = false := by
    by_contra hsep
    simp [isAbsolute, hsep] at hrelative
  have hlength : ¬ right.strlen = 0 := by
    rw [strlen]
    exact mt List.length_eq_zero_iff.mp hright
  simp only [join, hfirst, hmalloc, if_true, Bool.and_false, Bool.toNat_false, Nat.sub_zero,
    Bool.not_false, Bool.and_true, if_neg hlength]
  have hwhole : (right.drop 0).take right.strlen = right := by
    apply CString.ext
    simp [strlen]
  rw [hwhole]
  split
  · rw [dupCstr_eq hmalloc]
  · rename_i hleft
    have hne : left.bytes ≠ [] := mt List.length_eq_zero_iff.mpr hleft
    apply fileName_append hmalloc
    obtain ⟨front, hfront⟩ := eq_append_last hne
    cases hsep : isSep (left.byteAt (left.strlen - 1)) with
    | true =>
        simp only [Bool.not_true, Bool.false_eq_true, if_false]
        rw [hfront]
        exact fileNameLoop_of_last hsep
    | false =>
        simp only [Bool.not_false, if_true, bytes_append, Platform.separatorText]
        exact fileNameLoop_of_last (by cases platform <;> rfl)

theorem parent_join (platform : Platform) {left right : CString} (hleft : left.bytes ≠ [])
    (hlast : isSep (left.byteAt (left.strlen - 1)) = false) (hright : right.bytes ≠ [])
    (hplain : ∀ ch ∈ right.bytes, isSep ch = false) :
    parent malloc (join platform malloc left right) = some left := by
  have hpos := List.length_pos_iff.mpr hleft
  have hposRight := List.length_pos_iff.mpr hright
  have hfirst : isSep (right.byteAt 0) = false := by
    have hdrop := @drop_eq_cons right 0 hposRight
    rw [List.drop_zero] at hdrop
    exact hplain _ (by rw [hdrop]; exact List.mem_cons_self)
  have hjoin : join platform malloc left right =
      (left.append platform.separatorText).append ((right.drop 0).take right.strlen) := by
    simp only [join, hfirst, hlast, hmalloc, if_true, Bool.and_false, Bool.toNat_false,
      Nat.sub_zero, Bool.not_false, Bool.and_true]
    rw [if_neg (by rw [strlen]; omega), if_neg (by rw [strlen]; omega)]
  have hloop : parentLoop (join platform malloc left right).bytes 0 none =
      some left.bytes.length := by
    rw [hjoin]
    simp only [bytes_append, bytes_take, bytes_drop, List.drop_zero, strlen, List.take_length,
      Platform.separatorText]
    rw [parentLoop_append, parentLoop_append, parentLoop_of_plain hplain, parentLoop, parentLoop,
      if_pos (by cases platform <;> rfl), Nat.zero_add]
  rw [parent, hloop]
  dsimp only
  rw [if_neg (by omega), dupRange_eq hmalloc, hjoin]
  congr 1
  apply CString.ext
  simp [List.append_assoc]

end Algebra

/-- The equations between the operations, for paths with both separators. -/
theorem path_algebra (platform : Platform) (malloc : Malloc)
    (hmalloc : ∀ size, malloc size = true) :
    (∀ path : CString,
      ((extension malloc path).bytes ≠ [] → (fileName malloc path).bytes =
        (stem malloc path).bytes ++ [dot] ++ (extension malloc path).bytes) ∧
      ((extension malloc path).bytes = [] → stem malloc path = fileName malloc path)) ∧
    (∀ a b : CString, b.bytes ≠ [] → isAbsolute b = false →
      isSep (b.byteAt (b.strlen - 1)) = false →
        fileName malloc (join platform malloc a b) = fileName malloc b) ∧
    ∀ a b : CString, a.bytes ≠ [] → isSep (a.byteAt (a.strlen - 1)) = false → b.bytes ≠ [] →
      (∀ ch ∈ b.bytes, isSep ch = false) → parent malloc (join platform malloc a b) = some a := by
  refine ⟨fun path => ?_, fun a b hb hrelative _ => fileName_join hmalloc platform hb hrelative,
    fun a b ha hlast hb hplain => parent_join hmalloc platform ha hlast hb hplain⟩
  rcases name_parts hmalloc path with ⟨hne, hname⟩ | ⟨hempty, hstem⟩
  · exact ⟨fun _ => by rw [hname, List.append_assoc, List.singleton_append],
      fun hempty => absurd hempty hne⟩
  · exact ⟨fun hne => absurd hempty hne, fun _ => hstem⟩

/-- On a POSIX system, with memory for every request. -/
theorem path_algebra_posix :
    (∀ path : CString,
      ((extension (fun _ => true) path).bytes ≠ [] → (fileName (fun _ => true) path).bytes =
        (stem (fun _ => true) path).bytes ++ [dot] ++ (extension (fun _ => true) path).bytes) ∧
      ((extension (fun _ => true) path).bytes = [] →
        stem (fun _ => true) path = fileName (fun _ => true) path)) ∧
    (∀ a b : CString, b.bytes ≠ [] → isAbsolute b = false →
      isSep (b.byteAt (b.strlen - 1)) = false →
        fileName (fun _ => true) (join .posix (fun _ => true) a b) =
          fileName (fun _ => true) b) ∧
    ∀ a b : CString, a.bytes ≠ [] → isSep (a.byteAt (a.strlen - 1)) = false → b.bytes ≠ [] →
      (∀ ch ∈ b.bytes, isSep ch = false) →
        parent (fun _ => true) (join .posix (fun _ => true) a b) = some a :=
  path_algebra .posix (fun _ => true) fun _ => rfl

end Path

end Cnegative
