import Cnegative.Term.Input

namespace Cnegative

namespace Input

open Library

/-! Which units a call of `read_event` takes whole. -/

structure Numbers (most : Nat) (params : Text) : Prop where
  bytes : ∀ ch ∈ params, isDigit ch = true ∨ ch = semicolon
  separators : params.count semicolon ≤ most

/-- Up to three numbers, of which the last may be missing. -/
structure Report (numbers : Text) : Prop where
  within : Numbers 2 numbers
  filled : (semicolon :: numbers).IsChain fun left right => ¬ (left = semicolon ∧ right = semicolon)

/-- The parameters that the parser follows up to the final byte, with at most so many separators
before `<`. -/
inductive Followed (most : Nat) : Text → Prop
  | plain {params : Text} (hparams : Numbers most params) : Followed most params
  | report {before numbers : Text} (hbefore : Numbers most before) (hreport : Report numbers) :
      Followed most (before ++ 60 :: numbers)

/-- A control sequence that is taken whole, or a unit of another kind. -/
def InputUnit.Followed (unit : InputUnit) : Prop :=
  ∀ params final, unit.bytes = 27 :: 91 :: (params ++ [final]) → Input.Followed 1 params

/-- The way of `mouseLoop` through the parameters. -/
def mouseFollows (stage : Nat) (digit : Bool) : Text → Bool
  | [] => true
  | ch :: params =>
      if isDigit ch then mouseFollows stage true params
      else if ch = semicolon then digit && stage < 2 && mouseFollows (stage + 1) false params
      else false

/-- The way of `csiLoop` through the parameters. -/
def csiFollows (parsing2 : Bool) : Text → Bool
  | [] => true
  | ch :: params =>
      if ch = 60 then mouseFollows 0 false params
      else if isDigit ch then csiFollows parsing2 params
      else if ch = semicolon then !parsing2 && csiFollows true params
      else false

theorem semicolon_not_digit : isDigit semicolon = false := by decide

theorem less_not_digit : isDigit 60 = false := by decide

theorem final_bytes {final : UInt8} (hfinal : 64 ≤ final) :
    final ≠ 60 ∧ isDigit final = false ∧ final ≠ semicolon := by
  refine ⟨?_, ?_, ?_⟩
  · rintro rfl
    exact absurd hfinal (by decide)
  · rw [isDigit, Bool.and_eq_false_iff]
    right
    rw [decide_eq_false_iff_not]
    intro hle
    exact absurd (UInt8.le_trans hfinal hle) (by decide)
  · rintro rfl
    exact absurd hfinal (by decide)

/-! The parameters. -/

section

variable {most : Nat} {ch final : UInt8} {params : Text}

theorem Numbers.nil : Numbers most [] := ⟨fun _ hmem => (by cases hmem), Nat.zero_le _⟩

theorem numbers_digit (hdigit : isDigit ch = true) :
    Numbers most (ch :: params) ↔ Numbers most params := by
  have hne : ch ≠ semicolon := by
    rintro rfl
    rw [semicolon_not_digit] at hdigit
    cases hdigit
  constructor
  · rintro ⟨hbytes, hseparators⟩
    rw [List.count_cons_of_ne hne] at hseparators
    exact ⟨fun other hmem => hbytes other (List.mem_cons_of_mem _ hmem), hseparators⟩
  · rintro ⟨hbytes, hseparators⟩
    refine ⟨List.forall_mem_cons.mpr ⟨.inl hdigit, hbytes⟩, ?_⟩
    rwa [List.count_cons_of_ne hne]

theorem numbers_semicolon :
    Numbers most (semicolon :: params) ↔ 0 < most ∧ Numbers (most - 1) params := by
  constructor
  · rintro ⟨hbytes, hseparators⟩
    rw [List.count_cons_self] at hseparators
    exact ⟨by omega, fun other hmem => hbytes other (List.mem_cons_of_mem _ hmem), by omega⟩
  · rintro ⟨hmost, hbytes, hseparators⟩
    refine ⟨List.forall_mem_cons.mpr ⟨.inr rfl, hbytes⟩, ?_⟩
    rw [List.count_cons_self]
    omega

theorem numbers_other (hdigit : isDigit ch = false) (hsemicolon : ch ≠ semicolon) :
    ¬ Numbers most (ch :: params) := by
  rintro ⟨hbytes, -⟩
  obtain hfirst | hfirst := hbytes ch List.mem_cons_self
  · rw [hdigit] at hfirst
    cases hfirst
  · exact hsemicolon hfirst

/-- The walk through the numbers of a report, behind the byte `last`. -/
theorem mouseFollows_iff {stage : Nat} {digit : Bool} {last : UInt8} (hstage : stage ≤ 2)
    (hlast : digit = true ↔ last ≠ semicolon) :
    mouseFollows stage digit params = true ↔ Numbers (2 - stage) params ∧
      (last :: params).IsChain fun left right => ¬ (left = semicolon ∧ right = semicolon) := by
  induction params generalizing stage digit last with
  | nil => exact iff_of_true rfl ⟨.nil, List.isChain_singleton _⟩
  | cons ch params ih =>
      rw [mouseFollows, List.isChain_cons_cons]
      by_cases hdigit : isDigit ch = true
      · have hne : ch ≠ semicolon := by
          rintro rfl
          rw [semicolon_not_digit] at hdigit
          cases hdigit
        rw [if_pos hdigit, ih hstage (iff_of_true rfl hne), numbers_digit hdigit]
        simp [hne]
      · rw [if_neg hdigit]
        by_cases hsemicolon : ch = semicolon
        · subst hsemicolon
          rw [if_pos rfl, numbers_semicolon, Bool.and_eq_true, Bool.and_eq_true,
            decide_eq_true_eq, hlast]
          constructor
          · rintro ⟨⟨hfilled, hless⟩, hrest⟩
            rw [ih (by omega) (iff_of_false Bool.false_ne_true (fun hne => hne rfl))] at hrest
            exact ⟨⟨by omega, by rw [Nat.sub_sub]; exact hrest.1⟩,
              fun hboth => hfilled hboth.1, hrest.2⟩
          · rintro ⟨⟨hmost, hnumbers⟩, hpair, hchain⟩
            refine ⟨⟨fun heq => hpair ⟨heq, rfl⟩, by omega⟩, ?_⟩
            rw [ih (by omega) (iff_of_false Bool.false_ne_true (fun hne => hne rfl))]
            rw [Nat.sub_sub] at hnumbers
            exact ⟨hnumbers, hchain⟩
        · rw [if_neg hsemicolon]
          have hother : ¬ Numbers (2 - stage) (ch :: params) :=
            numbers_other (Bool.eq_false_iff.mpr hdigit) hsemicolon
          simp [hother]

theorem report_iff : mouseFollows 0 false params = true ↔ Report params := by
  rw [mouseFollows_iff (Nat.zero_le 2) (iff_of_false Bool.false_ne_true (fun hne => hne rfl))]
  exact ⟨fun hboth => ⟨hboth.1, hboth.2⟩, fun hreport => ⟨hreport.within, hreport.filled⟩⟩

theorem followed_nil : Followed most [] := .plain .nil

theorem followed_mouse : Followed most (60 :: params) ↔ Report params := by
  constructor
  · intro hfollowed
    generalize hall : 60 :: params = all at hfollowed
    cases hfollowed with
    | plain hparams =>
        subst hall
        exact absurd hparams (numbers_other less_not_digit (by decide))
    | @report before numbers hbefore hreport =>
        cases before with
        | nil =>
            obtain rfl := (List.cons.inj hall).2
            exact hreport
        | cons ch before =>
            obtain rfl := (List.cons.inj hall).1
            exact absurd hbefore (numbers_other less_not_digit (by decide))
  · exact fun hreport => .report .nil hreport

/-- A byte that does not start a report. -/
theorem followed_cons (hmouse : ch ≠ 60) {rest : Nat}
    (hnumbers : ∀ params, Numbers most (ch :: params) ↔ Numbers rest params) :
    Followed most (ch :: params) ↔ Followed rest params := by
  constructor
  · intro hfollowed
    generalize hall : ch :: params = all at hfollowed
    cases hfollowed with
    | plain hparams =>
        subst hall
        exact .plain ((hnumbers params).mp hparams)
    | @report before numbers hbefore hreport =>
        cases before with
        | nil => exact absurd (List.cons.inj hall).1 hmouse
        | cons first before =>
            obtain ⟨rfl, rfl⟩ := List.cons.inj hall
            exact .report ((hnumbers before).mp hbefore) hreport
  · intro hfollowed
    cases hfollowed with
    | plain hparams => exact .plain ((hnumbers params).mpr hparams)
    | @report before numbers hbefore hreport =>
        exact .report ((hnumbers before).mpr hbefore) hreport

theorem not_followed_cons (hmouse : ch ≠ 60) (hnumbers : ∀ params, ¬ Numbers most (ch :: params)) :
    ¬ Followed most (ch :: params) := by
  intro hfollowed
  generalize hall : ch :: params = all at hfollowed
  cases hfollowed with
  | plain hparams =>
      subst hall
      exact hnumbers params hparams
  | @report before numbers hbefore hreport =>
      cases before with
      | nil => exact hmouse (List.cons.inj hall).1
      | cons first before =>
          obtain rfl := (List.cons.inj hall).1
          exact hnumbers before hbefore

theorem csiFollows_iff {parsing2 : Bool} :
    csiFollows parsing2 params = true ↔ Followed (if parsing2 then 0 else 1) params := by
  induction params generalizing parsing2 with
  | nil => exact iff_of_true rfl followed_nil
  | cons ch params ih =>
      rw [csiFollows]
      by_cases hmouse : ch = 60
      · subst hmouse
        rw [if_pos rfl, report_iff, followed_mouse]
      · rw [if_neg hmouse]
        by_cases hdigit : isDigit ch = true
        · rw [if_pos hdigit, ih, followed_cons hmouse fun _ => numbers_digit hdigit]
        · rw [if_neg hdigit]
          by_cases hsemicolon : ch = semicolon
          · subst hsemicolon
            rw [if_pos rfl]
            cases parsing2 with
            | true =>
                refine iff_of_false (by simp) (not_followed_cons hmouse fun _ hnumbers => ?_)
                exact absurd (numbers_semicolon.mp hnumbers).1 (by simp)
            | false =>
                have hcons : Followed 1 (semicolon :: params) ↔ Followed 0 params :=
                  followed_cons hmouse fun _ => numbers_semicolon.trans (by simp)
                exact ih.trans hcons.symm
          · rw [if_neg hsemicolon]
            exact iff_of_false Bool.false_ne_true (not_followed_cons hmouse fun _ =>
              numbers_other (Bool.eq_false_iff.mpr hdigit) hsemicolon)

end

/-! The loops, with the final byte and what follows behind the parameters. -/

section

variable {final : UInt8} {params : Text}

theorem mouseLoop_takes (hfinal : 64 ≤ final) {stage : Nat} {digit : Bool}
    (hfollows : mouseFollows stage digit params = true) (current btn col : Word) :
    ∃ event, ∀ rest,
      mouseLoop stage current digit btn col (params ++ final :: rest) = (event, rest) := by
  induction params generalizing stage digit current btn col with
  | nil =>
      obtain ⟨-, hdigit, hsemicolon⟩ := final_bytes hfinal
      refine ⟨(mouseLoop stage current digit btn col [final]).1, fun rest => ?_⟩
      simp only [List.nil_append, mouseLoop, hdigit, hsemicolon, Bool.false_eq_true, if_false]
      split_ifs <;> rfl
  | cons ch params ih =>
      simp only [List.cons_append, mouseLoop]
      rw [mouseFollows] at hfollows
      split at hfollows
      next hdigit =>
        simp only [if_pos hdigit]
        exact ih hfollows _ _ _
      next hdigit =>
        split at hfollows
        next hsemicolon =>
          rw [Bool.and_eq_true, Bool.and_eq_true, decide_eq_true_eq] at hfollows
          obtain ⟨⟨hfilled, hstage⟩, hrest⟩ := hfollows
          simp only [if_neg hdigit, if_pos hsemicolon, if_pos hfilled]
          obtain rfl | rfl : stage = 0 ∨ stage = 1 := by omega
          · exact ih hrest _ _ _
          · exact ih hrest _ _ _
        next => cases hfollows

/-- What is given up before the final byte leaves at least that. -/
theorem mouseLoop_misses {stage : Nat} {digit : Bool}
    (hfollows : mouseFollows stage digit params = false) (hstage : stage ≤ 2)
    (current btn col : Word) (rest : Text) :
    rest.length < (mouseLoop stage current digit btn col (params ++ final :: rest)).2.length := by
  induction params generalizing stage digit current btn col with
  | nil => cases hfollows
  | cons ch params ih =>
      have hleft : rest.length < (params ++ final :: rest).length := by
        rw [List.length_append, List.length_cons]
        omega
      simp only [List.cons_append, mouseLoop]
      rw [mouseFollows] at hfollows
      split at hfollows
      next hdigit =>
        simp only [if_pos hdigit]
        exact ih hfollows hstage _ _ _
      next hdigit =>
        simp only [if_neg hdigit]
        split at hfollows
        next hsemicolon =>
          simp only [if_pos hsemicolon]
          split
          next hfilled =>
            split
            next hzero =>
              subst hzero
              exact ih (by simpa [hfilled] using hfollows) (by decide) _ _ _
            next =>
              split
              next hone =>
                subst hone
                exact ih (by simpa [hfilled] using hfollows) (by decide) _ _ _
              next => exact hleft
          next => exact hleft
        next hsemicolon =>
          simp only [if_neg hsemicolon]
          split_ifs <;> exact hleft

theorem csiLoop_takes (hfinal : 64 ≤ final) {parsing2 : Bool}
    (hfollows : csiFollows parsing2 params = true) (param1 current : Word) (digit : Bool) :
    ∃ event, ∀ rest,
      csiLoop param1 current parsing2 digit (params ++ final :: rest) = (event, rest) := by
  induction params generalizing parsing2 param1 current digit with
  | nil =>
      obtain ⟨hmouse, hdigit, hsemicolon⟩ := final_bytes hfinal
      refine ⟨csiFinalize final param1 current parsing2 digit, fun rest => ?_⟩
      simp only [List.nil_append, csiLoop, hmouse, hdigit, hsemicolon, Bool.false_eq_true,
        if_false]
  | cons ch params ih =>
      simp only [List.cons_append, csiLoop]
      rw [csiFollows] at hfollows
      split at hfollows
      next hmouse =>
        simp only [if_pos hmouse]
        exact mouseLoop_takes hfinal hfollows 0 0 0
      next hmouse =>
        simp only [if_neg hmouse]
        split at hfollows
        next hdigit =>
          simp only [if_pos hdigit]
          exact ih hfollows _ _ _
        next hdigit =>
          simp only [if_neg hdigit]
          split at hfollows
          next hsemicolon =>
            rw [Bool.and_eq_true, Bool.not_eq_true'] at hfollows
            obtain ⟨rfl, hrest⟩ := hfollows
            simp only [if_pos hsemicolon, Bool.false_eq_true, if_false]
            exact ih hrest _ _ _
          next => cases hfollows

theorem csiLoop_misses {parsing2 : Bool} (hfollows : csiFollows parsing2 params = false)
    (param1 current : Word) (digit : Bool) (rest : Text) :
    rest.length < (csiLoop param1 current parsing2 digit (params ++ final :: rest)).2.length := by
  induction params generalizing parsing2 param1 current digit with
  | nil => cases hfollows
  | cons ch params ih =>
      have hleft : rest.length < (params ++ final :: rest).length := by
        rw [List.length_append, List.length_cons]
        omega
      simp only [List.cons_append, csiLoop]
      rw [csiFollows] at hfollows
      split at hfollows
      next hmouse =>
        simp only [if_pos hmouse]
        exact mouseLoop_misses hfollows (by decide) 0 0 0 rest
      next hmouse =>
        simp only [if_neg hmouse]
        split at hfollows
        next hdigit =>
          simp only [if_pos hdigit]
          exact ih hfollows _ _ _
        next hdigit =>
          simp only [if_neg hdigit]
          split at hfollows
          next hsemicolon =>
            simp only [if_pos hsemicolon]
            split
            next => exact hleft
            next hfirst =>
              obtain rfl := Bool.eq_false_iff.mpr hfirst
              exact ih (by simpa using hfollows) _ _ _
          next hsemicolon =>
            simp only [if_neg hsemicolon]
            exact hleft

end

/-! Keys. -/

theorem word_tail : ∀ code < 256, 0x80 ≤ code ∧ code ≤ 0xBF →
    (BitVec.ofNat 64 code &&& 192 : Word) = 128 := by
  decide +kernel

theorem decodeTail_takes (mods : Word) {tails : Text}
    (htails : ∀ byte ∈ tails, Utf8.Tail byte.toNat) (code : Word) :
    ∃ event, ∀ rest, decodeTail mods tails.length code (tails ++ rest) = (some event, rest) := by
  induction tails generalizing code with
  | nil => exact ⟨_, fun _ => rfl⟩
  | cons byte tails ih =>
      obtain ⟨hbyte, htails⟩ := List.forall_mem_cons.mp htails
      have hcontinues : word byte &&& 192 = 128 := word_tail byte.toNat byte.toNat_lt hbyte
      simp only [List.length_cons, List.cons_append, decodeTail, if_pos hcontinues]
      exact ih htails _

theorem decodeTail_codes (mods : Word) {tails : Text} {codes : List Nat}
    (htails : tails.map UInt8.toNat = codes) (hcodes : ∀ code ∈ codes, Utf8.Tail code)
    (code : Word) :
    ∃ event, ∀ rest, decodeTail mods codes.length code (tails ++ rest) = (some event, rest) := by
  subst htails
  rw [List.length_map]
  exact decodeTail_takes mods (fun byte hmem => hcodes _ (List.mem_map_of_mem hmem)) code

theorem decodeSimpleByte_lead {byte : UInt8} (hlead : 194 ≤ byte) (mods : Word) (input : Text) :
    decodeSimpleByte byte mods input = decodeUtf8 byte mods input := by
  have hne : ∀ other : UInt8, other < 194 → byte ≠ other := by
    rintro other hless rfl
    exact absurd hlead (UInt8.not_le.mpr hless)
  have hprintable : ¬ (32 ≤ byte ∧ byte ≤ 126) := fun hboth =>
    absurd (UInt8.le_trans hlead hboth.2) (by decide)
  have hcontrol : ¬ (1 ≤ byte ∧ byte ≤ 26) := fun hboth =>
    absurd (UInt8.le_trans hlead hboth.2) (by decide)
  rw [decodeSimpleByte, if_neg (hne 27 (by decide)), if_neg (hne 13 (by decide)),
    if_neg (hne 10 (by decide)), if_neg (hne 9 (by decide)), if_neg (hne 127 (by decide)),
    if_neg (hne 8 (by decide)), if_neg hprintable, if_neg hcontrol, if_pos hlead]

theorem decodeSimpleByte_plain {byte : UInt8} (hlead : ¬ (194 ≤ byte ∧ byte ≤ 244)) (mods : Word) :
    ∃ event, ∀ rest, decodeSimpleByte byte mods rest = (some event, rest) := by
  by_cases hlow : 194 ≤ byte
  · have hbeyond : ∀ last : UInt8, last ≤ 244 → ¬ byte ≤ last := fun last hlast hle =>
      hlead ⟨hlow, UInt8.le_trans hle hlast⟩
    refine ⟨makeKeyEvent 0 mods, fun rest => ?_⟩
    rw [decodeSimpleByte_lead hlow, decodeUtf8,
      if_neg fun hboth => hbeyond 223 (by decide) hboth.2,
      if_neg fun hboth => hbeyond 239 (by decide) hboth.2,
      if_neg fun hboth => hbeyond 244 (by decide) hboth.2]
  · unfold decodeSimpleByte
    split_ifs <;> exact ⟨_, fun _ => rfl⟩

theorem decodeUtf8_char {bytes : Text} (hwell : Utf8.WellFormed (bytes.map UInt8.toNat))
    (hlong : 1 < bytes.length) (mods : Word) :
    ∃ byte tails event, bytes = byte :: tails ∧ 194 ≤ byte ∧
      ∀ rest, decodeUtf8 byte mods (tails ++ rest) = (some event, rest) := by
  generalize hcodes : bytes.map UInt8.toNat = codes at hwell
  have hlength : bytes.length = codes.length := by rw [← hcodes, List.length_map]
  obtain ⟨byte, tails, rfl⟩ : ∃ byte tails, bytes = byte :: tails := by
    cases bytes with
    | nil => cases hlong
    | cons byte tails => exact ⟨byte, tails, rfl⟩
  rw [List.map_cons] at hcodes
  have hle : ∀ low high : UInt8, low.toNat ≤ byte.toNat ∧ byte.toNat ≤ high.toNat →
      low ≤ byte ∧ byte ≤ high := fun low high hboth =>
    ⟨UInt8.le_iff_toNat_le.mpr hboth.1, UInt8.le_iff_toNat_le.mpr hboth.2⟩
  -- a lead byte of a longer character lies above the ranges that are asked for before
  have habove : ∀ low high first : UInt8, first ≤ byte → high < first →
      ¬ (low ≤ byte ∧ byte ≤ high) := fun low high first hfirst hhigh hboth =>
    absurd (UInt8.le_trans hfirst hboth.2) (UInt8.not_le.mpr hhigh)
  cases hwell with
  | one hfirst =>
      rw [hlength] at hlong
      exact absurd hlong (Nat.lt_irrefl 1)
  | two hfirst hsecond =>
      obtain ⟨rfl, htails⟩ := List.cons.inj hcodes
      have hrange := hle 194 223 hfirst
      obtain ⟨event, htakes⟩ :=
        decodeTail_codes mods htails (by simpa using hsecond) (word byte &&& 31)
      refine ⟨byte, tails, event, rfl, hrange.1, fun rest => ?_⟩
      rw [decodeUtf8, if_pos hrange]
      exact htakes rest
  | three hfirst hsecond hthird =>
      obtain ⟨rfl, htails⟩ := List.cons.inj hcodes
      have hrange := hle 224 239 hfirst
      obtain ⟨event, htakes⟩ :=
        decodeTail_codes mods htails (by simp [hsecond, hthird]) (word byte &&& 15)
      refine ⟨byte, tails, event, rfl, UInt8.le_trans (by decide) hrange.1, fun rest => ?_⟩
      rw [decodeUtf8, if_neg (habove 194 223 224 hrange.1 (by decide)), if_pos hrange]
      exact htakes rest
  | four hfirst hsecond hthird hfourth =>
      obtain ⟨rfl, htails⟩ := List.cons.inj hcodes
      have hrange := hle 240 244 hfirst
      obtain ⟨event, htakes⟩ :=
        decodeTail_codes mods htails (by simp [hsecond, hthird, hfourth]) (word byte &&& 7)
      refine ⟨byte, tails, event, rfl, UInt8.le_trans (by decide) hrange.1, fun rest => ?_⟩
      rw [decodeUtf8, if_neg (habove 194 223 240 hrange.1 (by decide)),
        if_neg (habove 224 239 240 hrange.1 (by decide)), if_pos hrange]
      exact htakes rest

theorem IsKey.takes {bytes : Text} (hkey : IsKey bytes) (mods : Word) :
    ∃ byte tails event, bytes = byte :: tails ∧ byte ≠ 27 ∧
      (byte < 194 → bytes = [byte]) ∧
      ∀ rest, decodeSimpleByte byte mods (tails ++ rest) = (some event, rest) := by
  cases hkey with
  | @plain byte hescape hlead =>
      obtain ⟨event, htakes⟩ := decodeSimpleByte_plain hlead mods
      exact ⟨byte, [], event, rfl, hescape, fun _ => rfl, htakes⟩
  | char hwell hlong =>
      obtain ⟨byte, tails, event, hbytes, hlow, htakes⟩ := decodeUtf8_char hwell hlong mods
      have hnot : ¬ byte < 194 := UInt8.not_lt.mpr hlow
      refine ⟨byte, tails, event, hbytes, ?_, fun hless => absurd hless hnot, fun rest => ?_⟩
      · rintro rfl
        exact hnot (by decide)
      · rw [decodeSimpleByte_lead hlow]
        exact htakes rest

/-! Calls and units. -/

theorem readInput_other {byte : UInt8} (hescape : byte ≠ 27) (input : Text) :
    readInput (byte :: input) = decodeSimpleByte byte 0 input := by
  unfold readInput
  exact if_neg hescape

theorem readInput_escape (next : UInt8) (input : Text) :
    readInput (27 :: next :: input) = escapeDispatch next input := rfl

theorem readInput_csi (params : Text) (final : UInt8) (rest : Text) :
    readInput (27 :: 91 :: (params ++ [final]) ++ rest) =
      (some (csiLoop 0 0 false false (params ++ final :: rest)).1,
        (csiLoop 0 0 false false (params ++ final :: rest)).2) := by
  rw [List.cons_append, List.cons_append, List.append_assoc, List.singleton_append]
  cases params <;> rfl

theorem followed_csi_iff {params : Text} {final : UInt8}
    (hunit : IsUnit (27 :: 91 :: (params ++ [final]))) :
    InputUnit.Followed ⟨27 :: 91 :: (params ++ [final]), hunit⟩ ↔
      csiFollows false params = true := by
  rw [csiFollows_iff]
  refine ⟨fun hfollowed => hfollowed params final rfl, fun hfollowed params' final' hsame => ?_⟩
  have hparts := List.append_inj' (List.cons.inj (List.cons.inj hsame).2).2 rfl
  rw [← hparts.1]
  exact hfollowed

/-- A unit is answered with an event; it is taken whole, unless it is a control sequence whose
parameters are not followed. -/
theorem unit_takes (unit : InputUnit) :
    (∃ event, (readInput unit.bytes).1 = some event) ∧
      (unit.Followed → Takes readInput unit.bytes) ∧
      (¬ unit.Followed → Misses readInput unit.bytes) := by
  obtain ⟨bytes, hunit⟩ := unit
  -- what a unit that is no control sequence has to show
  have hsimple : ∀ event, (∀ params final, bytes ≠ 27 :: 91 :: (params ++ [final])) →
      (∀ rest, readInput (bytes ++ rest) = (some event, rest)) →
      (∃ event, (readInput bytes).1 = some event) ∧
        (InputUnit.Followed ⟨bytes, hunit⟩ → Takes readInput bytes) ∧
        (¬ InputUnit.Followed ⟨bytes, hunit⟩ → Misses readInput bytes) := by
    intro event hother htakes
    refine ⟨⟨event, ?_⟩, fun _ => ⟨some event, htakes⟩, fun hnot => absurd ?_ hnot⟩
    · have halone := htakes []
      rw [List.append_nil] at halone
      rw [halone]
    · exact fun params final hbytes => absurd hbytes (hother params final)
  cases hunit with
  | key hkey =>
      obtain ⟨byte, tails, event, rfl, hescape, -, htakes⟩ := hkey.takes 0
      refine hsimple event (fun params final hbytes => hescape (List.cons.inj hbytes).1)
        fun rest => ?_
      rw [List.cons_append, readInput_other hescape]
      exact htakes rest
  | alt hkey hcsi hss3 =>
      obtain ⟨byte, tails, event, rfl, hescape, hshort, htakes⟩ := hkey.takes 2
      have hcsiNot : byte ≠ 91 := by
        rintro rfl
        exact hcsi (hshort (by decide))
      have hss3Not : byte ≠ 79 := by
        rintro rfl
        exact hss3 (hshort (by decide))
      refine hsimple event (fun params final hbytes => ?_) fun rest => ?_
      · exact hcsiNot (List.cons.inj (List.cons.inj hbytes).2).1
      · rw [List.cons_append, List.cons_append, readInput_escape]
        unfold escapeDispatch
        rw [if_neg hcsiNot, if_neg hss3Not]
        exact htakes rest
  | ss3 final =>
      refine hsimple (parseSs3 final) (fun params final' hbytes => ?_) fun rest => rfl
      exact absurd (List.cons.inj (List.cons.inj hbytes).2).1 (by decide)
  | csi params final hparams hfinal =>
      have hfollowed := followed_csi_iff (.csi params final hparams hfinal)
      refine ⟨⟨(csiLoop 0 0 false false (params ++ [final])).1, ?_⟩, fun hyes => ?_,
        fun hno rest => ?_⟩
      · have halone := readInput_csi params final []
        rw [List.append_nil] at halone
        rw [halone]
      · obtain ⟨event, htakes⟩ := csiLoop_takes hfinal.1 (hfollowed.mp hyes) 0 0 false
        refine ⟨some event, fun rest => ?_⟩
        rw [readInput_csi, htakes]
      · rw [readInput_csi]
        dsimp only
        intro hsame
        have hless := @csiLoop_misses final params false
          (Bool.eq_false_iff.mpr fun htrue => hno (hfollowed.mpr htrue)) 0 0 false rest
        rw [hsame] at hless
        exact absurd hless (Nat.lt_irrefl _)

theorem readEvents_eq (polls : List (Option Event)) (input : Text) :
    readEvents polls input = readAll readInput (polls.map (Option.map some)) input := by
  induction polls generalizing input with
  | nil => rfl
  | cons resize polls ih =>
      rw [readEvents, List.map_cons]
      cases resize with
      | none =>
          simp only [readEvent, ih]
          rfl
      | some event =>
          simp only [readEvent, ih]
          rfl

/-- Each call that is not interrupted by a resize answers for one unit and takes it. -/
def EventsInStep (polls : List (Option Event)) (units : List InputUnit) : Prop :=
  readEvents polls (streamOf units) =
    (unitAnswers readInput (polls.map (Option.map some)) (units.map InputUnit.bytes),
      streamOf (units.drop (polls.countP Option.isNone)))

theorem eventsInStep_iff (polls : List (Option Event)) (units : List InputUnit) :
    EventsInStep polls units ↔
      InStep readInput (polls.map (Option.map some)) (units.map InputUnit.bytes) := by
  have hcount : (polls.map (Option.map some)).countP (Option.isNone (α := Option Event)) =
      polls.countP Option.isNone := by
    rw [List.countP_map]
    exact List.countP_congr fun poll _ => by cases poll <;> rfl
  rw [EventsInStep, InStep, readEvents_eq, hcount, ← List.map_drop]
  rfl

/-- The calls stay in step with the units just when the parser follows every control sequence. -/
theorem read_event_in_step_iff (units : List InputUnit) :
    ((∀ unit ∈ units, ∃ event, (readInput unit.bytes).1 = some event) ∧
      ∀ polls, EventsInStep polls units) ↔ ∀ unit ∈ units, unit.Followed := by
  have hdecided : ∀ bytes ∈ units.map InputUnit.bytes,
      Takes readInput bytes ∨ Misses readInput bytes := by
    intro bytes hmem
    obtain ⟨unit, -, rfl⟩ := List.mem_map.mp hmem
    obtain ⟨-, htakes, hmisses⟩ := unit_takes unit
    by_cases hfollowed : unit.Followed
    · exact .inl (htakes hfollowed)
    · exact .inr (hmisses hfollowed)
  constructor
  · rintro ⟨-, hstep⟩ unit hmem
    by_contra hnot
    have hreplicate : ∀ count, InStep readInput (List.replicate count none)
        (units.map InputUnit.bytes) := by
      intro count
      have hcalls := (eventsInStep_iff (List.replicate count none) units).mp (hstep _)
      rwa [List.map_replicate] at hcalls
    obtain ⟨answer, htakes⟩ :=
      takes_of_inStep hdecided hreplicate unit.bytes (List.mem_map_of_mem hmem)
    exact (unit_takes unit).2.2 hnot [] (congrArg Prod.snd (htakes []))
  · intro hfollowed
    refine ⟨fun unit _ => (unit_takes unit).1, fun polls => (eventsInStep_iff polls units).mpr ?_⟩
    refine InStep.of_takes rfl (fun bytes hmem => ?_) _
    obtain ⟨unit, hunit, rfl⟩ := List.mem_map.mp hmem
    exact (unit_takes unit).2.1 (hfollowed unit hunit)

/-- `ESC [ ? 1 c`, with which a terminal tells what it is. -/
def deviceReply : InputUnit :=
  ⟨[27, 91, 63, 49, 99], .csi [63, 49] 99 (by simp) (by decide)⟩

theorem device_reply_is_typed :
    readEvents [none, none, none] (streamOf [deviceReply]) =
        ([some unknown, some (makeKeyEvent 49 0), some (makeKeyEvent 99 0)], []) ∧
      ¬ EventsInStep [none] [deviceReply] := by
  refine ⟨by decide, fun hstep => ?_⟩
  have hrest : (readEvents [none] (streamOf [deviceReply])).2 = [] := congrArg Prod.snd hstep
  exact absurd hrest (by decide)

end Input

end Cnegative
