import Cnegative.Parse.Primary

namespace Cnegative

namespace Parse

/-! Postfixes. -/

variable {tokens more : List Token} {tree next : ExprTree}

/-- A round of the loop over postfixes behind what is read so far. -/
theorem ReadBase.postfix (hread : ReadBase tokens tree) (hmore : more ≠ [])
    (hloose : ∀ rest, Loose rest → Loose (more ++ rest))
    (hround : ∀ room rest, (more ++ rest).length ≤ room →
      Consumes (postfixRound (parseExpressionWith room) tree) more rest (.inl next)) :
    ReadBase (tokens ++ more) next := by
  intro room rest hroom hrest
  rw [List.append_assoc] at hroom
  obtain ⟨first, leading, trailing, rfl, hleading, hrounds⟩ :=
    hread room (more ++ rest) hroom (hloose rest hrest)
  have hlength : (more ++ rest).length ≤ room := by
    rw [List.length_append] at hroom
    omega
  exact ⟨first, leading, trailing ++ more, by rw [List.append_assoc],
    by rwa [List.append_assoc], hrounds.trans (.round hmore (hround room rest hlength))⟩

theorem ReadBase.call {arguments : List ExprTree} (hread : ReadBase tokens tree)
    (harguments : ItemsRead arguments) :
    ReadBase (tokens ++ mark .lparen :: (printItems arguments ++ [mark .rparen]))
      (.call tree.offset tree arguments) := by
  refine hread.postfix (by simp) (fun rest _ => .of_kind nofun nofun) fun room rest hroom => ?_
  refine .bind_cons (.accept rfl (by decide)) ?_
  cases arguments with
  | nil => exact .check true rfl (.bind_cons (.consume rfl (by decide) _) (.pure _ rest))
  | cons first arguments =>
      simp only [printItems, List.cons_append, List.append_assoc, List.nil_append,
        List.length_cons] at hroom
      obtain ⟨hkind, hfirst, hmore⟩ :=
        @consumes_list .rparen rfl rfl nofun nofun _ _ harguments _ _ (Nat.lt_of_succ_le hroom)
      rw [printItems, List.append_assoc]
      refine .check false hkind (.bind hfirst (.bind hmore ?_))
      exact .bind_cons (.consume rfl (by decide) _) (.pure _ rest)

/-- What stands between the brackets of an index or a slice, where the grammar has it. -/
def BoundRead (bound : Option ExprTree) : Prop :=
  ∀ tree ∈ bound, Whole (printExpr tree) tree

theorem ReadBase.index {index : ExprTree} (hread : ReadBase tokens tree)
    (hindex : Whole (printExpr index) index) :
    ReadBase (tokens ++ mark .lbracket :: (printExpr index ++ [mark .rbracket]))
      (.index tree.offset tree index) := by
  refine hread.postfix (by simp) (fun rest _ => .of_kind nofun nofun) fun room rest hroom => ?_
  simp only [List.cons_append, List.append_assoc, List.nil_append, List.length_cons] at hroom
  refine .bind_nil (.accept_other nofun) (.bind_cons (.accept rfl (by decide)) ?_)
  have hrange := hindex.kindAt_ne ([mark .rbracket] ++ rest)
    (show startsAt 0 .range = false from rfl)
  have hclose := hindex.kindAt_ne ([mark .rbracket] ++ rest)
    (show startsAt 0 .rbracket = false from rfl)
  rw [← List.append_assoc] at hrange hclose
  refine .check false (by rwa [beq_eq_false_iff_ne]) ?_
  refine .check false (by rwa [beq_eq_false_iff_ne]) ?_
  refine .bind (hindex.closed (Nat.lt_of_succ_le hroom) rfl nofun) ?_
  refine .bind_nil (.accept_other nofun) ?_
  exact .bind_cons (.consume rfl (by decide) _) (.pure _ rest)

/-- Behind `..`. -/
theorem consumes_stop {base : ExprTree} {start stop : Option ExprTree} (hstop : BoundRead stop)
    {room : Nat} {rest : List Token}
    (hroom : (mark .range :: (printBound stop ++ mark .rbracket :: rest)).length ≤ room) :
    Consumes (bracketRest (parseExpressionWith room) base start)
      (mark .range :: (printBound stop ++ [mark .rbracket])) rest
      (.inl (.sliceView base.offset base start stop)) := by
  refine .bind_cons (.accept rfl (by decide)) ?_
  cases stop with
  | none => exact .check true rfl (.bind_cons (.consume rfl (by decide) _) (.pure _ rest))
  | some stop =>
      have hwhole := hstop stop rfl
      have hclose := hwhole.kindAt_ne ([mark .rbracket] ++ rest)
        (show startsAt 0 .rbracket = false from rfl)
      rw [← List.append_assoc] at hclose
      refine .check false (by rwa [beq_eq_false_iff_ne]) ?_
      refine .bind (hwhole.closed (Nat.lt_of_succ_le hroom) rfl nofun) ?_
      exact .bind_cons (.consume rfl (by decide) _) (.pure _ rest)

theorem ReadBase.sliceView {start stop : Option ExprTree} (hread : ReadBase tokens tree)
    (hstart : BoundRead start) (hstop : BoundRead stop) :
    ReadBase (tokens ++ mark .lbracket :: (printBound start ++
        mark .range :: (printBound stop ++ [mark .rbracket])))
      (.sliceView tree.offset tree start stop) := by
  refine hread.postfix (by simp) (fun rest _ => .of_kind nofun nofun) fun room rest hroom => ?_
  simp only [List.cons_append, List.append_assoc, List.nil_append, List.length_cons] at hroom
  refine .bind_nil (.accept_other nofun) (.bind_cons (.accept rfl (by decide)) ?_)
  cases start with
  | none => exact .check true rfl (consumes_stop hstop (Nat.le_of_succ_le hroom))
  | some start =>
      have hwhole := hstart start rfl
      have hrange := hwhole.kindAt_ne
        (mark .range :: (printBound stop ++ [mark .rbracket]) ++ rest)
        (show startsAt 0 .range = false from rfl)
      have hclose := hwhole.kindAt_ne
        (mark .range :: (printBound stop ++ [mark .rbracket]) ++ rest)
        (show startsAt 0 .rbracket = false from rfl)
      rw [← List.append_assoc] at hrange hclose
      have hbefore : (printExpr start ++ (mark .range :: (printBound stop ++
          mark .rbracket :: rest))).length < room := Nat.lt_of_succ_le hroom
      have hmore : (mark .range :: (printBound stop ++ mark .rbracket :: rest)).length ≤ room := by
        rw [List.length_append] at hbefore
        omega
      refine .check false (by rwa [beq_eq_false_iff_ne]) ?_
      refine .check false (by rwa [beq_eq_false_iff_ne]) ?_
      refine .bind (hwhole.closed ?_ rfl nofun) (consumes_stop hstop hmore)
      simpa only [List.cons_append, List.append_assoc, List.nil_append] using hbefore

theorem consumes_fieldName (name : Text) (rest : List Token) :
    Consumes consumeFieldName [fieldToken name] rest (some (fieldToken name)) := by
  by_cases hok : name = Name.text "ok"
  · have hkind : (fieldToken name).kind = .ok := if_pos hok
    refine .check false ?_ (.check true ?_ (.bind_cons (.advance ?_) (.pure _ rest)))
    · rw [List.singleton_append, kindAt_zero, hkind]
      rfl
    · rw [List.singleton_append, kindAt_zero, hkind]
      rfl
    · rw [hkind]
      decide
  · have hkind : (fieldToken name).kind = .identifier := if_neg hok
    refine .check true ?_ (.bind_cons (.advance ?_) (.pure _ rest))
    · rw [List.singleton_append, kindAt_zero, hkind]
      rfl
    · rw [hkind]
      decide

theorem ReadBase.field (hread : ReadBase tokens tree) (name : Text) :
    ReadBase (tokens ++ [mark .dot, fieldToken name]) (.field tree.offset tree name) := by
  refine hread.postfix (by simp) (fun rest hrest => ?_) fun room rest _ => ?_
  · exact ⟨fun hopens => (nomatch hopens.1), fun hdotted => hrest.fields hdotted.2.2⟩
  · refine .bind_nil (.accept_other nofun) (.bind_nil (.accept_other nofun) ?_)
    refine .bind_cons (.accept rfl (by decide)) ?_
    exact (consumes_fieldName name rest).bind_last (.pure _ rest)

end Parse

end Cnegative
