import Cnegative.Runtime.Numeral

namespace Cnegative

namespace Net

open Numeral

/-! Host names of `std.net`. An address is the word that lies in `sin_addr`, on a machine
that stores the low byte first. -/

def dot : UInt8 := 46

/-- The loop of `cn_net_is_ipv4`, over the bytes from the cursor on. -/
def ipv4Loop : Text → Nat → Nat → Nat → Bool
  | [], segments, digits, _ => if 0 < digits then segments == 3 else false
  | ch :: rest, segments, digits, octet =>
      if ch = dot then
        if 0 < digits then if 3 < segments + 1 then false else ipv4Loop rest (segments + 1) 0 0
        else false
      else if 48 ≤ ch ∧ ch ≤ 57 then
        if 3 < digits + 1 then false
        else if octet * 10 + (ch - 48).toNat ≤ 255 then
          ipv4Loop rest segments (digits + 1) (octet * 10 + (ch - 48).toNat)
        else false
      else false

def isIpv4 (value : Text) : Bool := ipv4Loop value 0 0 0

/-! `inet_addr` belongs to the C library; this is what POSIX says of it. -/

def digitValue (ch : UInt8) : Nat :=
  if 48 ≤ ch ∧ ch ≤ 57 then (ch - 48).toNat
  else if 97 ≤ ch ∧ ch ≤ 102 then (ch - 87).toNat
  else if 65 ≤ ch ∧ ch ≤ 70 then (ch - 55).toNat
  else 16

def numberIn (base : Nat) (text : Text) : Option Nat :=
  if text ≠ [] ∧ text.all (fun ch => digitValue ch < base) = true then
    some (text.foldl (fun number ch => number * base + digitValue ch) 0)
  else none

/-- A part is decimal, octal behind a `0`, or hexadecimal behind `0x` or `0X`. -/
def inetPart : Text → Option Nat
  | [] => none
  | [48] => some 0
  | 48 :: mark :: rest =>
      if mark = 120 ∨ mark = 88 then numberIn 16 rest else numberIn 8 (mark :: rest)
  | text => numberIn 10 text

/-- The last part takes the bytes that the parts in front of it leave. -/
def inetNumber : List Nat → Option Nat
  | [a] => if a < 2 ^ 32 then some a else none
  | [a, b] => if a < 2 ^ 8 ∧ b < 2 ^ 24 then some (a * 2 ^ 24 + b) else none
  | [a, b, c] =>
      if a < 2 ^ 8 ∧ b < 2 ^ 8 ∧ c < 2 ^ 16 then some (a * 2 ^ 24 + b * 2 ^ 16 + c) else none
  | [a, b, c, d] =>
      if a < 2 ^ 8 ∧ b < 2 ^ 8 ∧ c < 2 ^ 8 ∧ d < 2 ^ 8 then
        some (a * 2 ^ 24 + b * 2 ^ 16 + c * 2 ^ 8 + d)
      else none
  | _ => none

def htonl (value : Nat) : Nat :=
  value / 2 ^ 24 % 256 + value / 2 ^ 16 % 256 * 2 ^ 8 + value / 2 ^ 8 % 256 * 2 ^ 16 +
    value % 256 * 2 ^ 24

def inetAddr (value : Text) : Nat :=
  match ((value.splitOn dot).mapM inetPart).bind inetNumber with
  | some number => htonl number
  | none => 0xFFFFFFFF

def localhost : Text := [108, 111, 99, 97, 108, 104, 111, 115, 116]

/-- The string at `@.cn.net.loopback`. -/
def loopback : Text := [49, 50, 55, 46, 48, 46, 48, 46, 49]

/-- `cn_net_resolve_host`; `none` is err. -/
def resolveHost (host : CString) (allowAny : Bool) : Option Nat :=
  if host.byteAt 0 = 0 then if allowAny then some 0 else none
  else if host.bytes = localhost then some (inetAddr loopback)
  else if isIpv4 host.bytes then some (inetAddr host.bytes)
  else none

/-- The bytes of the word in memory, which is their order on the wire. -/
def addressBytes (address : Nat) : List Nat :=
  [address % 256, address / 2 ^ 8 % 256, address / 2 ^ 16 % 256, address / 2 ^ 24 % 256]

/-! Dotted decimal. -/

/-- The number that a text of digits denotes. -/
def decimal (group : Text) : Nat := Library.Decimal.value (group.map digitOf)

structure OctetGroup (group : Text) : Prop where
  nonempty : group ≠ []
  length_le : group.length ≤ 3
  digits : ∀ ch ∈ group, isDigit ch = true
  decimal_le : decimal group ≤ 255

structure Dotted (value : Text) : Prop where
  four : (value.splitOn dot).length = 4
  groups : ∀ group ∈ value.splitOn dot, OctetGroup group

/-- The group means the same in C, where a leading zero makes it octal. -/
def Plain (group : Text) : Prop := group.head? ≠ some 48 ∨ decimal group ≤ 7

instance (group : Text) : Decidable (Plain group) := inferInstanceAs (Decidable (_ ∨ _))

theorem isDigit_iff {ch : UInt8} : isDigit ch = true ↔ 48 ≤ ch ∧ ch ≤ 57 := by
  simp [isDigit]

theorem isDigit_ne_dot {ch : UInt8} (hdigit : isDigit ch = true) : ch ≠ dot := by
  rintro rfl
  exact absurd hdigit (by decide)

theorem decimal_concat (front : Text) (ch : UInt8) :
    decimal (front ++ [ch]) = decimal front * 10 + digitOf ch := by
  rw [decimal, List.map_append, List.map_singleton, Library.Decimal.value_append_singleton]
  rfl

theorem decimal_append_le (front back : Text) : decimal front ≤ decimal (front ++ back) := by
  induction back using List.reverseRecOn with
  | nil => rw [List.append_nil]
  | append_singleton back ch ih =>
      rw [← List.append_assoc, decimal_concat]
      omega

/-- The part in front of the first dot takes what is put in front of everything. -/
theorem splitOn_append (front rest : Text) (hfront : dot ∉ front) :
    (front ++ rest).splitOn dot = (rest.splitOn dot).modifyHead (front ++ ·) := by
  induction front with
  | nil =>
      rw [List.nil_append]
      cases rest.splitOn dot <;> rfl
  | cons ch front ih =>
      have hch : ch ≠ dot := fun heq => hfront (heq ▸ List.mem_cons_self)
      rw [List.cons_append, List.splitOn_cons_eq_if_modifyHead, if_neg (by simpa using hch),
        ih fun hmem => hfront (List.mem_cons_of_mem _ hmem)]
      cases rest.splitOn dot <;> rfl

/-- What a group that is accepted may begin with. -/
structure OctetPrefix (front : Text) : Prop where
  length_le : front.length ≤ 3
  digits : ∀ ch ∈ front, isDigit ch = true
  decimal_le : decimal front ≤ 255

section

variable {front rest : Text} {ch : UInt8} {segments : Nat}

theorem OctetGroup.octetPrefix {back : Text} (hgroup : OctetGroup (front ++ back)) :
    OctetPrefix front where
  length_le := by
    have hle := hgroup.length_le
    rw [List.length_append] at hle
    omega
  digits ch hmem := hgroup.digits ch (List.mem_append_left _ hmem)
  decimal_le := (decimal_append_le front back).trans hgroup.decimal_le

theorem OctetPrefix.octetGroup (hfront : OctetPrefix front) (hne : front ≠ []) :
    OctetGroup front :=
  ⟨hne, hfront.length_le, hfront.digits, hfront.decimal_le⟩

theorem OctetPrefix.dot_not_mem (hfront : OctetPrefix front) : dot ∉ front :=
  fun hmem => isDigit_ne_dot (hfront.digits dot hmem) rfl

/-- The bytes that are already read begin some group of the text. -/
theorem octetPrefix_of_groups (hfront : dot ∉ front)
    (hgroups : ∀ group ∈ (front ++ rest).splitOn dot, OctetGroup group) : OctetPrefix front := by
  rw [splitOn_append front rest hfront] at hgroups
  cases hsplit : rest.splitOn dot with
  | nil => exact absurd hsplit (List.splitOn_ne_nil _ _)
  | cons back groups =>
      have hback : front ++ back ∈ (rest.splitOn dot).modifyHead (front ++ ·) := by
        simp [hsplit]
      exact (hgroups _ hback).octetPrefix

/-- One more digit is read just when the group may still be accepted. -/
theorem ipv4Loop_digit (hnext : OctetPrefix (front ++ [ch])) :
    ipv4Loop (ch :: rest) segments front.length (decimal front) =
      ipv4Loop rest segments (front ++ [ch]).length (decimal (front ++ [ch])) := by
  have hdigit : isDigit ch = true := hnext.digits ch (by simp)
  have hlength : ¬ 3 < front.length + 1 := by
    have hle := hnext.length_le
    rw [List.length_append, List.length_singleton] at hle
    omega
  have hvalue : decimal front * 10 + (ch - 48).toNat = decimal (front ++ [ch]) :=
    (decimal_concat front ch).symm
  rw [ipv4Loop, if_neg (isDigit_ne_dot hdigit), if_pos (isDigit_iff.mp hdigit), if_neg hlength,
    hvalue, if_pos hnext.decimal_le, List.length_append, List.length_singleton]

theorem ipv4Loop_refused (hfront : OctetPrefix front) (hdot : ch ≠ dot)
    (hnext : ¬ OctetPrefix (front ++ [ch])) :
    ipv4Loop (ch :: rest) segments front.length (decimal front) = false := by
  rw [ipv4Loop, if_neg hdot]
  by_cases hdigit : 48 ≤ ch ∧ ch ≤ 57
  · rw [if_pos hdigit]
    by_cases hlong : 3 < front.length + 1
    · exact if_pos hlong
    · have hlarge : ¬ decimal front * 10 + (ch - 48).toNat ≤ 255 := by
        intro hle
        refine hnext ⟨?_, fun other hmem => ?_, (decimal_concat front ch).trans_le hle⟩
        · rw [List.length_append, List.length_singleton]
          omega
        · obtain hmem | hlast := List.mem_append.mp hmem
          · exact hfront.digits other hmem
          · rw [List.mem_singleton.mp hlast]
            exact isDigit_iff.mpr hdigit
      rw [if_neg hlong, if_neg hlarge]
  · exact if_neg hdigit

/-- A dot closes a group, which must not be empty. -/
theorem ipv4Loop_dot (hne : front ≠ []) :
    ipv4Loop (dot :: rest) segments front.length (decimal front) =
      if 3 < segments + 1 then false else ipv4Loop rest (segments + 1) 0 0 := by
  rw [ipv4Loop, if_pos rfl, if_pos (List.length_pos_iff.mpr hne)]

/-- The rest of the loop, behind a group of which some digits are read. -/
theorem ipv4Loop_iff (rest front : Text) (segments : Nat) (hfront : OctetPrefix front)
    (hsegments : segments ≤ 3) :
    ipv4Loop rest segments front.length (decimal front) = true ↔
      ((front ++ rest).splitOn dot).length + segments = 4 ∧
        ∀ group ∈ (front ++ rest).splitOn dot, OctetGroup group := by
  induction rest generalizing front segments with
  | nil =>
      rw [List.append_nil, List.splitOn_eq_singleton hfront.dot_not_mem]
      cases front with
      | nil =>
          refine iff_of_false (by simp [ipv4Loop]) fun hgood => ?_
          exact (hgood.2 [] (List.mem_singleton_self _)).nonempty rfl
      | cons ch front =>
          simp only [ipv4Loop, List.length_cons, Nat.succ_pos, if_true, beq_iff_eq]
          constructor
          · rintro rfl
            refine ⟨rfl, fun group hgroup => ?_⟩
            rw [List.mem_singleton.mp hgroup]
            exact hfront.octetGroup (List.cons_ne_nil _ _)
          · rintro ⟨hcount, -⟩
            have hsum : 1 + segments = 4 := hcount
            omega
  | cons ch rest ih =>
      by_cases hdot : ch = dot
      · subst hdot
        rw [List.splitOn_append_cons_self_of_not_mem hfront.dot_not_mem]
        simp only [List.length_cons, List.forall_mem_cons]
        by_cases hempty : front = []
        · subst hempty
          refine iff_of_false (by simp [ipv4Loop]) fun hgood => ?_
          exact hgood.2.1.nonempty rfl
        rw [ipv4Loop_dot hempty]
        by_cases hmany : 3 < segments + 1
        · rw [if_pos hmany]
          refine iff_of_false (by simp) fun hgood => ?_
          have hpos := List.length_pos_iff.mpr (List.splitOn_ne_nil dot rest)
          omega
        · rw [if_neg hmany]
          have hnext := ih [] (segments + 1) ⟨by simp, by simp, by decide⟩ (by omega)
          rw [List.nil_append] at hnext
          refine hnext.trans (and_congr (by omega) ?_)
          exact ⟨fun hall => ⟨hfront.octetGroup hempty, hall⟩, And.right⟩
      · have hshift : front ++ ch :: rest = (front ++ [ch]) ++ rest := by simp
        rw [hshift]
        by_cases hnext : OctetPrefix (front ++ [ch])
        · rw [ipv4Loop_digit hnext]
          exact ih (front ++ [ch]) segments hnext hsegments
        · rw [ipv4Loop_refused hfront hdot hnext]
          refine iff_of_false Bool.false_ne_true fun hgood => ?_
          refine hnext (octetPrefix_of_groups ?_ hgood.2)
          rw [List.mem_append, List.mem_singleton]
          rintro (hmem | heq)
          · exact hfront.dot_not_mem hmem
          · exact hdot heq.symm

end

theorem isIpv4_iff (value : Text) : isIpv4 value = true ↔ Dotted value := by
  have hloop := ipv4Loop_iff value [] 0 ⟨by simp, by simp, by decide⟩ (by decide)
  rw [List.nil_append] at hloop
  exact hloop.trans ⟨fun hgood => ⟨hgood.1, hgood.2⟩, fun hgood => ⟨hgood.four, hgood.groups⟩⟩

/-! What `inet_addr` makes of a group. -/

theorem digitValue_of_isDigit {ch : UInt8} (hdigit : isDigit ch = true) :
    digitValue ch = digitOf ch := if_pos (isDigit_iff.mp hdigit)

theorem digitOf_lt {ch : UInt8} (hdigit : isDigit ch = true) : digitOf ch < 10 := by
  obtain ⟨hlow, hhigh⟩ := isDigit_iff.mp hdigit
  rw [UInt8.le_iff_toNat_le] at hlow hhigh
  have hsub : (ch - 48).toNat = ch.toNat - 48 := UInt8.toNat_sub_of_le _ _ hlow
  rw [digitOf, hsub]
  have hnine : ch.toNat ≤ 57 := hhigh
  omega

theorem foldl_digitValue {base : Nat} (text : Text) (hdigits : ∀ ch ∈ text, isDigit ch = true)
    (number : Nat) :
    text.foldl (fun number ch => number * base + digitValue ch) number =
      (text.map digitOf).foldl (fun number digit => number * base + digit) number := by
  induction text generalizing number with
  | nil => rfl
  | cons ch text ih =>
      rw [List.foldl_cons, List.map_cons, List.foldl_cons,
        digitValue_of_isDigit (hdigits ch List.mem_cons_self),
        ih fun other hother => hdigits other (List.mem_cons_of_mem _ hother)]

theorem inetPart_of_decimal {group : Text} (hgroup : OctetGroup group)
    (hhead : group.head? ≠ some 48) : inetPart group = some (decimal group) := by
  have hpart : inetPart group = numberIn 10 group := by
    unfold inetPart
    split
    · exact absurd rfl hgroup.nonempty
    · exact absurd rfl hhead
    · exact absurd rfl hhead
    · rfl
  have hall : group.all (fun ch => digitValue ch < 10) = true := by
    rw [List.all_eq_true]
    intro ch hch
    rw [digitValue_of_isDigit (hgroup.digits ch hch)]
    simpa using digitOf_lt (hgroup.digits ch hch)
  rw [hpart, numberIn, if_pos ⟨hgroup.nonempty, hall⟩, foldl_digitValue _ hgroup.digits]
  rfl

theorem inetPart_octal {ch : UInt8} {rest : Text}
    (hdigits : ∀ other ∈ ch :: rest, isDigit other = true) :
    inetPart (48 :: ch :: rest) = numberIn 8 (ch :: rest) := by
  have hdigit := (isDigit_iff.mp (hdigits ch List.mem_cons_self)).2
  have hmark : ¬ (ch = 120 ∨ ch = 88) := by
    rintro (rfl | rfl)
    · exact absurd hdigit (by decide)
    · exact absurd hdigit (by decide)
  exact if_neg hmark

/-- Behind a zero the digits are octal: below eight that makes no difference, and from eight on
there is no number that agrees. -/
theorem inetPart_of_zero {rest : Text} (hgroup : OctetGroup (48 :: rest)) :
    (decimal (48 :: rest) ≤ 7 → inetPart (48 :: rest) = some (decimal (48 :: rest))) ∧
      (¬ decimal (48 :: rest) ≤ 7 → decimal (48 :: rest) < 255 ∧
        ∀ number, inetPart (48 :: rest) = some number → number < 256 ∧
          number ≠ decimal (48 :: rest)) := by
  have hlength := hgroup.length_le
  have hall := hgroup.digits
  match rest, hlength, hall with
  | [], _, _ => exact ⟨fun _ => rfl, fun hlarge => absurd (by decide) hlarge⟩
  | [ch], _, hall =>
      have hdigit := hall ch (by simp)
      have hdecimal : decimal [48, ch] = digitOf ch := by
        change (0 * 10 + 0) * 10 + digitOf ch = _
        omega
      rw [inetPart_octal fun other hother => hall other (List.mem_cons_of_mem _ hother), hdecimal,
        numberIn]
      simp only [List.all_cons, List.all_nil, Bool.and_true, decide_eq_true_eq, List.foldl_cons,
        List.foldl_nil, digitValue_of_isDigit hdigit]
      have hlt := digitOf_lt hdigit
      constructor
      · intro hsmall
        rw [if_pos ⟨by simp, by omega⟩]
        simp
      · intro hlarge
        rw [if_neg fun h => hlarge (by omega)]
        exact ⟨by omega, fun _ hnone => by cases hnone⟩
  | [first, second], _, hall =>
      have hfirst := hall first (by simp)
      have hsecond := hall second (by simp)
      have hdecimal : decimal [48, first, second] = digitOf first * 10 + digitOf second := by
        change ((0 * 10 + 0) * 10 + digitOf first) * 10 + digitOf second = _
        omega
      rw [inetPart_octal fun other hother => hall other (List.mem_cons_of_mem _ hother), hdecimal,
        numberIn]
      simp only [List.all_cons, List.all_nil, Bool.and_true, Bool.and_eq_true, decide_eq_true_eq,
        List.foldl_cons, List.foldl_nil, digitValue_of_isDigit hfirst,
        digitValue_of_isDigit hsecond]
      have hfirstLt := digitOf_lt hfirst
      have hsecondLt := digitOf_lt hsecond
      constructor
      · intro hsmall
        rw [if_pos ⟨by simp, by omega, by omega⟩, Option.some.injEq]
        omega
      · intro hlarge
        refine ⟨by omega, fun number hnumber => ?_⟩
        split at hnumber
        · obtain rfl := Option.some.inj hnumber
          omega
        · cases hnumber

theorem inetPart_of_plain {group : Text} (hgroup : OctetGroup group) (hplain : Plain group) :
    inetPart group = some (decimal group) := by
  by_cases hhead : group.head? = some 48
  · obtain ⟨rest, rfl⟩ : ∃ rest, group = 48 :: rest := by
      cases group with
      | nil => cases hhead
      | cons ch rest => exact ⟨rest, by rw [Option.some.inj hhead]⟩
    exact (inetPart_of_zero hgroup).1 (hplain.resolve_left fun hne => hne rfl)
  · exact inetPart_of_decimal hgroup hhead

theorem inetPart_of_not_plain {group : Text} (hgroup : OctetGroup group) (hplain : ¬ Plain group) :
    decimal group < 255 ∧
      ∀ number, inetPart group = some number → number < 256 ∧ number ≠ decimal group := by
  obtain ⟨hhead, hlarge⟩ := not_or.mp hplain
  obtain ⟨rest, rfl⟩ : ∃ rest, group = 48 :: rest := by
    cases group with
    | nil => exact absurd (by simp) hhead
    | cons ch rest => exact ⟨rest, by rw [Option.some.inj (not_not.mp hhead)]⟩
  exact (inetPart_of_zero hgroup).2 hlarge

theorem inetPart_lt {group : Text} (hgroup : OctetGroup group) {number : Nat}
    (hpart : inetPart group = some number) : number < 256 := by
  by_cases hplain : Plain group
  · rw [inetPart_of_plain hgroup hplain] at hpart
    obtain rfl := Option.some.inj hpart
    have hle := hgroup.decimal_le
    omega
  · exact ((inetPart_of_not_plain hgroup hplain).2 number hpart).1

theorem inetPart_eq_iff {group : Text} (hgroup : OctetGroup group) :
    inetPart group = some (decimal group) ↔ Plain group := by
  constructor
  · intro hpart
    by_contra hplain
    exact ((inetPart_of_not_plain hgroup hplain).2 _ hpart).2 rfl
  · exact inetPart_of_plain hgroup

theorem addressBytes_htonl {a b c d : Nat} (ha : a < 256) (hb : b < 256) (hc : c < 256)
    (hd : d < 256) :
    addressBytes (htonl (a * 2 ^ 24 + b * 2 ^ 16 + c * 2 ^ 8 + d)) = [a, b, c, d] := by
  have hword : htonl (a * 2 ^ 24 + b * 2 ^ 16 + c * 2 ^ 8 + d) =
      a + b * 2 ^ 8 + c * 2 ^ 16 + d * 2 ^ 24 := by
    unfold htonl
    rw [show (a * 2 ^ 24 + b * 2 ^ 16 + c * 2 ^ 8 + d) / 2 ^ 24 % 256 = a by omega,
      show (a * 2 ^ 24 + b * 2 ^ 16 + c * 2 ^ 8 + d) / 2 ^ 16 % 256 = b by omega,
      show (a * 2 ^ 24 + b * 2 ^ 16 + c * 2 ^ 8 + d) / 2 ^ 8 % 256 = c by omega,
      show (a * 2 ^ 24 + b * 2 ^ 16 + c * 2 ^ 8 + d) % 256 = d by omega]
  rw [hword]
  simp only [addressBytes, List.cons.injEq, and_true]
  omega

/-- The word has the decimal values in order just when no group is octal. -/
theorem inetAddr_iff {value : Text} (hdotted : Dotted value) :
    addressBytes (inetAddr value) = (value.splitOn dot).map decimal ↔
      ∀ group ∈ value.splitOn dot, Plain group := by
  obtain ⟨hfour, hgroups⟩ := hdotted
  unfold inetAddr
  generalize value.splitOn dot = groups at hfour hgroups
  match groups, hfour, hgroups with
  | [a, b, c, d], _, hgroups =>
      simp only [List.forall_mem_cons, List.not_mem_nil, false_implies, implies_true,
        and_true] at hgroups ⊢
      obtain ⟨ha, hb, hc, hd⟩ := hgroups
      constructor
      · intro hbytes
        cases hparts : [a, b, c, d].mapM inetPart with
        | none =>
            rw [hparts] at hbytes
            change [255, 255, 255, 255] = _ at hbytes
            have hhigh : ∀ {group : Text}, OctetGroup group → 255 = decimal group →
                Plain group := by
              intro group hgroup heq
              by_contra hplain
              exact absurd (inetPart_of_not_plain hgroup hplain).1 (by omega)
            simp only [List.map_cons, List.map_nil, List.cons.injEq, and_true] at hbytes
            exact ⟨hhigh ha hbytes.1, hhigh hb hbytes.2.1, hhigh hc hbytes.2.2.1,
              hhigh hd hbytes.2.2.2⟩
        | some parts =>
            rw [hparts] at hbytes
            simp only [List.mapM_cons, List.mapM_nil, Option.bind_eq_bind, Option.bind_eq_some_iff,
              Option.pure_def, Option.some.injEq] at hparts
            obtain ⟨a', ha', _, ⟨b', hb', _, ⟨c', hc', _, ⟨d', hd', _, rfl, rfl⟩, rfl⟩, rfl⟩,
              rfl⟩ := hparts
            have haLt := inetPart_lt ha ha'
            have hbLt := inetPart_lt hb hb'
            have hcLt := inetPart_lt hc hc'
            have hdLt := inetPart_lt hd hd'
            have hnumber : inetNumber [a', b', c', d'] =
                some (a' * 2 ^ 24 + b' * 2 ^ 16 + c' * 2 ^ 8 + d') :=
              if_pos ⟨haLt, hbLt, hcLt, hdLt⟩
            rw [Option.bind_some, hnumber] at hbytes
            dsimp only at hbytes
            rw [addressBytes_htonl haLt hbLt hcLt hdLt] at hbytes
            simp only [List.map_cons, List.map_nil, List.cons.injEq, and_true] at hbytes
            obtain ⟨rfl, rfl, rfl, rfl⟩ := hbytes
            exact ⟨(inetPart_eq_iff ha).mp ha', (inetPart_eq_iff hb).mp hb',
              (inetPart_eq_iff hc).mp hc', (inetPart_eq_iff hd).mp hd'⟩
      · rintro ⟨haPlain, hbPlain, hcPlain, hdPlain⟩
        have hle : ∀ {group : Text}, OctetGroup group → decimal group < 256 :=
          fun hgroup => Nat.lt_succ_of_le hgroup.decimal_le
        have hparts : [a, b, c, d].mapM inetPart =
            some [decimal a, decimal b, decimal c, decimal d] := by
          simp only [List.mapM_cons, List.mapM_nil, inetPart_of_plain ha haPlain,
            inetPart_of_plain hb hbPlain, inetPart_of_plain hc hcPlain,
            inetPart_of_plain hd hdPlain, Option.bind_eq_bind, Option.bind_some, Option.pure_def]
        have hnumber : inetNumber [decimal a, decimal b, decimal c, decimal d] =
            some (decimal a * 2 ^ 24 + decimal b * 2 ^ 16 + decimal c * 2 ^ 8 + decimal d) :=
          if_pos ⟨hle ha, hle hb, hle hc, hle hd⟩
        rw [hparts, Option.bind_some, hnumber]
        exact addressBytes_htonl (hle ha) (hle hb) (hle hc) (hle hd)

/-- A dotted host is neither empty nor `localhost`, and is resolved. -/
theorem resolveHost_dotted (host : CString) (allowAny : Bool) (hdotted : Dotted host.bytes) :
    resolveHost host allowAny = some (inetAddr host.bytes) := by
  have hfirst : host.byteAt 0 ≠ 0 := by
    intro hzero
    have hempty : host.bytes = [] :=
      List.eq_nil_of_length_eq_zero (Nat.le_zero.mp ((host.byteAt_eq_zero_iff 0).mp hzero))
    have hfour := hdotted.four
    rw [hempty] at hfour
    exact absurd hfour (by decide)
  have hlocalhost : host.bytes ≠ localhost := by
    intro heq
    have hfour := hdotted.four
    rw [heq] at hfour
    exact absurd hfour (by decide)
  rw [resolveHost, if_neg hfirst, if_neg hlocalhost, if_pos ((isIpv4_iff _).mpr hdotted)]

/-- The validation accepts dotted decimal, and the address that is used has the same values just
when no group reads as another octal number. -/
theorem is_ipv4_agrees_iff (host : CString) :
    (isIpv4 host.bytes = true ↔ Dotted host.bytes) ∧
      (Dotted host.bytes → ∀ allowAny,
        ((∀ address, resolveHost host allowAny = some address →
          addressBytes address = (host.bytes.splitOn dot).map decimal) ↔
            ∀ group ∈ host.bytes.splitOn dot, Plain group)) := by
  refine ⟨isIpv4_iff _, fun hdotted allowAny => ?_⟩
  rw [resolveHost_dotted host allowAny hdotted, ← inetAddr_iff hdotted]
  constructor
  · exact fun hall => hall _ rfl
  · rintro hbytes _ ⟨rfl⟩
    exact hbytes

/-- The host `10.0.0.1`. -/
theorem is_ipv4_agrees_plain :
    (∀ address, resolveHost ⟨[49, 48, 46, 48, 46, 48, 46, 49], by simp⟩ false = some address →
      addressBytes address = [10, 0, 0, 1]) := by
  have hdotted : Dotted [49, 48, 46, 48, 46, 48, 46, 49] := (isIpv4_iff _).mp (by decide)
  exact ((is_ipv4_agrees_iff ⟨[49, 48, 46, 48, 46, 48, 46, 49], by simp⟩).2 hdotted false).mpr
    (by decide)

/-- `010.0.0.1` is accepted, and it is the host `8.0.0.1` that is reached. -/
theorem padded_host_is_octal :
    ¬ (∀ (host : CString) (allowAny : Bool) (address : Nat), isIpv4 host.bytes = true →
      resolveHost host allowAny = some address →
        addressBytes address = (host.bytes.splitOn dot).map decimal) ∧
    isIpv4 [48, 49, 48, 46, 48, 46, 48, 46, 49] = true ∧
    (resolveHost ⟨[48, 49, 48, 46, 48, 46, 48, 46, 49], by simp⟩ false).map addressBytes =
      some [8, 0, 0, 1] := by
  have haccepted : isIpv4 [48, 49, 48, 46, 48, 46, 48, 46, 49] = true := by decide
  have hresolved : resolveHost ⟨[48, 49, 48, 46, 48, 46, 48, 46, 49], by simp⟩ false =
      some (htonl (8 * 2 ^ 24 + 1)) := by decide
  refine ⟨fun hagree => ?_, haccepted, by rw [hresolved]; rfl⟩
  exact absurd (hagree _ false _ haccepted hresolved) (by decide)

end Net

end Cnegative
