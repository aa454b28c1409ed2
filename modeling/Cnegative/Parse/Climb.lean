import Cnegative.Parse.Levels

namespace Cnegative

namespace Parse

/-! From one level of the grammar to the next. -/

variable {tokens left right : List Token} {tree leftTree rightTree : ExprTree}

/-- A whole expression, where `cn_parse_expression` is called. -/
theorem ReadAt.expression (hread : ReadAt 0 tokens tree) {room : Nat} {rest : List Token}
    (hroom : (tokens ++ rest).length < room) (hstops : Stops 0 rest) :
    Consumes (parseExpressionWith room) tokens rest (some tree) := by
  cases room with
  | zero => exact absurd hroom (Nat.not_lt_zero _)
  | succ room => exact hread room rest (Nat.lt_succ_iff.mp hroom) hstops

/-! The loop over operators. -/

theorem chainRound_end {sub : Parser (Option ExprTree)} {m : Nat} {rest : List Token}
    (hstops : Stops m rest) (carried : ExprTree) :
    Consumes (chainRound sub (levelKinds m) carried) [] rest (.inr carried) := by
  refine .current fun token hkind => ?_
  have hother : ¬ (levelKinds m).contains token.kind = true := by
    rw [List.contains_eq_mem, decide_eq_true_iff, hkind]
    exact not_mem_of_goesOn (Nat.le_refl m) hstops.goesOn_eq
  rw [if_neg hother]
  exact .pure _ rest

theorem operatorKind_mem (op : BinaryOp) : operatorKind op ∈ levelKinds (operatorLevel op) := by
  cases op <;> decide

theorem binaryFromToken_operatorKind (op : BinaryOp) : binaryFromToken (operatorKind op) = op := by
  cases op <;> rfl

theorem operatorLevel_range (op : BinaryOp) : 1 ≤ operatorLevel op ∧ operatorLevel op ≤ 6 := by
  cases op <;> decide

theorem goesOn_operatorKind (op : BinaryOp) :
    goesOn (operatorLevel op + 1) (operatorKind op) = false := by
  cases op <;> decide

theorem operatorKind_ne (op : BinaryOp) : operatorKind op ≠ .eof ∧ operatorKind op ≠ .lbrace ∧
    operatorKind op ≠ .dot ∧ operatorKind op ≠ .colon := by
  cases op <;> decide

theorem chainRound_operator {sub : Parser (Option ExprTree)} {op : BinaryOp} {offset : Nat}
    {carried : ExprTree} {rest : List Token} (hright : Consumes sub right rest (some rightTree)) :
    Consumes (chainRound sub (levelKinds (operatorLevel op)) carried)
      (keyword (operatorKind op) offset :: right) rest
      (.inl (.binary offset op carried rightTree)) := by
  have hmem : (levelKinds (operatorLevel op)).contains (operatorKind op) = true := by
    rw [List.contains_eq_mem, decide_eq_true_iff]
    exact operatorKind_mem op
  refine .current_cons ?_
  rw [if_pos (show (levelKinds (operatorLevel op)).contains
    (keyword (operatorKind op) offset).kind = true from hmem)]
  refine (Consumes.advance (operatorKind_ne op).1).bind_cons ?_
  refine hright.bind_last ?_
  have hop : binaryFromToken (keyword (operatorKind op) offset).kind = op :=
    binaryFromToken_operatorKind op
  simp only [hop]
  exact .pure _ rest

theorem ReadChain.readAt {m : Nat} (hfirst : 1 ≤ m) (hlast : m ≤ 6)
    (hread : ReadChain m tokens tree) : ReadAt m tokens tree := by
  intro room rest hroom hstops
  obtain ⟨first, leading, trailing, rfl, hleading, hrounds⟩ :=
    hread room rest hroom (hstops.mono (Nat.le_succ m))
  rw [levelParser_chain _ hfirst hlast]
  exact hleading.bind (hrounds.finish (chainRound_end hstops tree)).map

theorem ReadAt.chain {m : Nat} (hread : ReadAt (m + 1) tokens tree) : ReadChain m tokens tree :=
  fun room rest hroom hstops => ⟨tree, tokens, [], (List.append_nil _).symm,
    hread room rest hroom hstops, .refl _ tree rest⟩

theorem ReadChain.binary {op : BinaryOp} (offset : Nat)
    (hleft : ReadChain (operatorLevel op) left leftTree)
    (hright : ReadAt (operatorLevel op + 1) right rightTree) :
    ReadChain (operatorLevel op) (left ++ keyword (operatorKind op) offset :: right)
      (.binary offset op leftTree rightTree) := by
  intro room rest hroom hstops
  have hlength : (left ++ keyword (operatorKind op) offset :: right ++ rest).length =
      left.length + (right.length + rest.length + 1) := by
    simp only [List.length_append, List.length_cons]
    omega
  have hoperator : Stops (operatorLevel op + 1)
      (keyword (operatorKind op) offset :: right ++ rest) :=
    .of_kind (goesOn_operatorKind op) (operatorKind_ne op).2.1
  obtain ⟨first, leading, trailing, rfl, hleading, hrounds⟩ :=
    hleft room (keyword (operatorKind op) offset :: right ++ rest)
      (by simpa only [List.append_assoc] using hroom) hoperator
  refine ⟨first, leading, trailing ++ keyword (operatorKind op) offset :: right,
    by rw [List.append_assoc], by rwa [List.append_assoc], hrounds.trans (.round (by simp) ?_)⟩
  refine chainRound_operator (hright room rest ?_ hstops)
  rw [List.length_append]
  omega

/-! Unary operators. -/

theorem unaryTree_unaryKind (op : UnaryTree) : unaryTree (unaryKind op) = some op := by
  cases op <;> rfl

theorem unaryKind_ne_eof (op : UnaryTree) : unaryKind op ≠ .eof := by cases op <;> decide

theorem ReadUnary.unary {op : UnaryTree} (offset : Nat) (hread : ReadUnary tokens tree) :
    ReadUnary (keyword (unaryKind op) offset :: tokens) (.unary offset op tree) := by
  intro room rest fuel hroom hfuel hstops
  simp only [List.cons_append, List.length_cons] at hroom hfuel
  cases fuel with
  | zero => exact absurd hfuel (Nat.not_lt_zero _)
  | succ fuel =>
      have hop : unaryTree (keyword (unaryKind op) offset).kind = some op :=
        unaryTree_unaryKind op
      refine .current_cons ?_
      rw [hop]
      refine (Consumes.advance (unaryKind_ne_eof op)).bind_cons ?_
      exact (hread room rest fuel (by omega) (by omega) hstops).map

theorem ReadBase.readAt (hread : ReadBase tokens tree) : ReadAt 8 tokens tree := by
  intro room rest hroom hstops
  obtain ⟨first, leading, trailing, rfl, hleading, hrounds⟩ := hread room rest hroom hstops.loose
  refine hleading.bind (hrounds.finish ?_).map
  have hkind := hstops.goesOn_eq
  unfold goesOn at hkind
  simp only [Bool.or_eq_false_iff, beq_eq_false_iff_ne] at hkind
  obtain ⟨⟨⟨hparen, hbracket⟩, hdot⟩, -⟩ := hkind
  refine (Consumes.accept_other hparen).bind_nil ?_
  refine (Consumes.accept_other hbracket).bind_nil ?_
  exact (Consumes.accept_other hdot).bind_nil (.pure _ rest)

theorem ReadBase.unary (hread : ReadBase tokens tree) (hopens : Opens 8 tokens) :
    ReadUnary tokens tree := by
  intro room rest fuel hroom hfuel hstops
  cases fuel with
  | zero => exact absurd hfuel (Nat.not_lt_zero _)
  | succ fuel =>
      refine .current fun token hkind => ?_
      have hnone : unaryTree token.kind = none := by
        rw [hkind, hopens.kindAt_eq]
        have hstarts := hopens.starts
        revert hstarts
        cases kindAt tokens 0 <;> decide
      rw [hnone]
      exact hread.readAt room rest hroom (hstops.mono (by decide))

theorem ReadUnary.readAt (hread : ReadUnary tokens tree) : ReadAt 7 tokens tree :=
  fun room rest hroom hstops last diagnostics =>
    hread room rest _ hroom (Nat.lt_succ_self _) hstops last diagnostics

/-! `ok`, and a whole expression without it. -/

theorem ReadAt.ok (offset : Nat) (hread : ReadAt 0 tokens tree) :
    ReadAt 0 (keyword .ok offset :: tokens) (.ok offset tree) := by
  intro room rest hroom hstops
  simp only [List.cons_append, List.length_cons] at hroom
  refine .current_cons ?_
  refine (@Consumes.accept (keyword .ok offset) .ok _ rfl (by decide)).bind_cons ?_
  exact (hread.expression (Nat.lt_of_succ_le hroom) hstops).map

theorem ReadAt.without_ok (hread : ReadAt 1 tokens tree) (hopens : Opens 1 tokens) :
    ReadAt 0 tokens tree := by
  intro room rest hroom hstops
  have hkind : kindAt (tokens ++ rest) 0 ≠ .ok := by
    rw [hopens.kindAt_eq]
    intro hok
    have hstarts := hopens.starts
    rw [hok] at hstarts
    revert hstarts
    decide
  refine .current fun token _ => ?_
  refine (Consumes.accept_other hkind).bind_nil ?_
  exact hread room rest hroom (hstops.mono (by decide))

/-! From a level to any looser one. -/

theorem ReadAs.readAt {n : Nat} (hle : n ≤ 8) (hread : ReadAs n tokens tree) :
    ReadAt n tokens tree := by
  interval_cases n
  · exact hread
  · exact ReadChain.readAt (by decide) (by decide) hread
  · exact ReadChain.readAt (by decide) (by decide) hread
  · exact ReadChain.readAt (by decide) (by decide) hread
  · exact ReadChain.readAt (by decide) (by decide) hread
  · exact ReadChain.readAt (by decide) (by decide) hread
  · exact ReadChain.readAt (by decide) (by decide) hread
  · exact ReadUnary.readAt hread
  · exact ReadBase.readAt hread

theorem ReadAs.step {n : Nat} (hle : n < 8) (hopens : Opens (n + 1) tokens)
    (hread : ReadAs (n + 1) tokens tree) : ReadAs n tokens tree := by
  have hat := hread.readAt hle
  interval_cases n
  · exact hat.without_ok hopens
  · exact hat.chain
  · exact hat.chain
  · exact hat.chain
  · exact hat.chain
  · exact hat.chain
  · exact hat.chain
  · exact ReadBase.unary hread hopens

theorem ReadAs.looser {n m : Nat} (hle : n ≤ m) (hm : m ≤ 8) (hopens : Opens m tokens)
    (hread : ReadAs m tokens tree) : ReadAs n tokens tree := by
  induction hle using Nat.decreasingInduction with
  | self => exact hread
  | of_succ k hk ih => exact ih.step (by omega) (hopens.mono hk)

end Parse

end Cnegative
