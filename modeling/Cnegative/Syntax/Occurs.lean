import Cnegative.Syntax.Ir

namespace Cnegative

/-! Where an expression stands in the IR. -/

def IrExpr.children : IrExpr → List IrExpr
  | .unary _ _ operand => [operand]
  | .binary _ _ left right => [left, right]
  | .ifExpr _ condition thenExpr elseExpr => [condition, thenExpr, elseExpr]
  | .call _ _ _ _ arguments => arguments
  | .arrayLiteral _ items => items
  | .sliceFromArray _ base => [base]
  | .index _ base position => [base, position]
  | .sliceView _ base start stop => base :: (start.toList ++ stop.toList)
  | .field _ base _ => [base]
  | .structLiteral _ _ _ fields => fields.map Prod.snd
  | .ok _ value => [value]
  | .addr _ target => [target]
  | .deref _ target => [target]
  | _ => []

/-- The expressions of a statement outside its blocks. -/
def IrStmt.expressions : IrStmt → List IrExpr
  | .letStmt _ _ _ initializer => [initializer]
  | .assign target value => [target, value]
  | .returnStmt value => value.toList
  | .expr value => [value]
  | .ifStmt condition _ _ => [condition]
  | .whileStmt condition _ => [condition]
  | .forStmt _ _ start stop _ => [start, stop]
  | .free value => [value]
  | _ => []

def IrStmt.blocks : IrStmt → List IrBlock
  | .zone _ body => [body]
  | .ifStmt _ thenBlock elseBlock => thenBlock :: elseBlock.toList
  | .whileStmt _ body => [body]
  | .loop body => [body]
  | .forStmt _ _ _ _ body => [body]
  | _ => []

/-- `part` stands in the expression, at any depth. -/
inductive IrExpr.Within (part : IrExpr) : IrExpr → Prop where
  | self : Within part part
  | child {expression child : IrExpr} (hchild : child ∈ expression.children)
      (hwithin : Within part child) : Within part expression

/-- `part` stands in a statement of the block, at any nesting of statements and expressions. -/
inductive IrBlock.Occurs (part : IrExpr) : IrBlock → Prop where
  | here {block : IrBlock} {statement : IrStmt} {expression : IrExpr}
      (hstatement : statement ∈ block) (hexpression : expression ∈ statement.expressions)
      (hwithin : part.Within expression) : Occurs part block
  | nested {block inner : IrBlock} {statement : IrStmt} (hstatement : statement ∈ block)
      (hinner : inner ∈ statement.blocks) (hoccurs : Occurs part inner) : Occurs part block

theorem IrExpr.Within.of_child {part inner expression : IrExpr} (hpart : part ∈ inner.children)
    (hwithin : inner.Within expression) : part.Within expression := by
  induction hwithin with
  | self => exact .child hpart .self
  | child hchild _ ih => exact .child hchild ih

theorem IrBlock.Occurs.of_child {part inner : IrExpr} {block : IrBlock}
    (hpart : part ∈ inner.children) (hoccurs : IrBlock.Occurs inner block) :
    IrBlock.Occurs part block := by
  induction hoccurs with
  | here hstatement hexpression hwithin =>
      exact .here hstatement hexpression (hwithin.of_child hpart)
  | nested hstatement hinner _ ih => exact .nested hstatement hinner ih

theorem IrBlock.Occurs.mono {part : IrExpr} {block block' : IrBlock} (hsubset : block ⊆ block')
    (hoccurs : IrBlock.Occurs part block) : IrBlock.Occurs part block' := by
  cases hoccurs with
  | here hstatement hexpression hwithin => exact .here (hsubset hstatement) hexpression hwithin
  | nested hstatement hinner hoccurs => exact .nested (hsubset hstatement) hinner hoccurs

theorem IrExpr.sizeOf_child {expression child : IrExpr} (hchild : child ∈ expression.children) :
    sizeOf child < sizeOf expression := by
  cases expression with
  | call type target moduleName functionName arguments =>
      have hlt := List.sizeOf_lt_of_mem (show child ∈ arguments from hchild)
      simp only [IrExpr.call.sizeOf_spec]
      omega
  | arrayLiteral type items =>
      have hlt := List.sizeOf_lt_of_mem (show child ∈ items from hchild)
      simp only [IrExpr.arrayLiteral.sizeOf_spec]
      omega
  | structLiteral type moduleName typeName fields =>
      obtain ⟨⟨name, value⟩, hmem, rfl⟩ :=
        List.mem_map.mp (show child ∈ fields.map Prod.snd from hchild)
      have hlt := List.sizeOf_lt_of_mem hmem
      simp only [IrExpr.structLiteral.sizeOf_spec, Prod.mk.sizeOf_spec] at hlt ⊢
      omega
  | sliceView type base start stop =>
      obtain rfl | hbound := List.mem_cons.mp hchild
      · simp only [IrExpr.sliceView.sizeOf_spec]
        omega
      · rw [List.mem_append, Option.mem_toList, Option.mem_toList] at hbound
        obtain rfl | rfl := hbound
        · simp only [IrExpr.sliceView.sizeOf_spec, Option.some.sizeOf_spec]
          omega
        · simp only [IrExpr.sliceView.sizeOf_spec, Option.some.sizeOf_spec]
          omega
  | unary | sliceFromArray | field | ok | addr | deref =>
      rw [List.mem_singleton.mp hchild]
      simp only [IrExpr.unary.sizeOf_spec, IrExpr.sliceFromArray.sizeOf_spec,
        IrExpr.field.sizeOf_spec, IrExpr.ok.sizeOf_spec, IrExpr.addr.sizeOf_spec,
        IrExpr.deref.sizeOf_spec]
      omega
  | binary | index =>
      obtain rfl | hchild := List.mem_cons.mp hchild
      · simp only [IrExpr.binary.sizeOf_spec, IrExpr.index.sizeOf_spec]
        omega
      · rw [List.mem_singleton.mp hchild]
        simp only [IrExpr.binary.sizeOf_spec, IrExpr.index.sizeOf_spec]
        omega
  | ifExpr =>
      obtain rfl | hchild := List.mem_cons.mp hchild
      · simp only [IrExpr.ifExpr.sizeOf_spec]
        omega
      · obtain rfl | hchild := List.mem_cons.mp hchild
        · simp only [IrExpr.ifExpr.sizeOf_spec]
          omega
        · rw [List.mem_singleton.mp hchild]
          simp only [IrExpr.ifExpr.sizeOf_spec]
          omega
  | _ => cases hchild

theorem IrExpr.inductionOnChildren {motive : IrExpr → Prop}
    (hstep : ∀ expression, (∀ child ∈ expression.children, motive child) → motive expression)
    (expression : IrExpr) : motive expression :=
  hstep expression fun child _ => inductionOnChildren hstep child
termination_by sizeOf expression
decreasing_by exact IrExpr.sizeOf_child ‹child ∈ expression.children›

theorem IrStmt.sizeOf_block {statement : IrStmt} {block : IrBlock}
    (hblock : block ∈ statement.blocks) : sizeOf block < sizeOf statement := by
  cases statement with
  | ifStmt condition thenBlock elseBlock =>
      obtain rfl | helse := List.mem_cons.mp hblock
      · simp only [IrStmt.ifStmt.sizeOf_spec]
        omega
      · rw [Option.mem_toList.mp helse]
        simp only [IrStmt.ifStmt.sizeOf_spec, Option.some.sizeOf_spec]
        omega
  | zone name body =>
      rw [List.mem_singleton.mp hblock]
      simp only [IrStmt.zone.sizeOf_spec]
      omega
  | whileStmt condition body =>
      rw [List.mem_singleton.mp hblock]
      simp only [IrStmt.whileStmt.sizeOf_spec]
      omega
  | loop body =>
      rw [List.mem_singleton.mp hblock]
      simp only [IrStmt.loop.sizeOf_spec]
      omega
  | forStmt name type start stop body =>
      rw [List.mem_singleton.mp hblock]
      simp only [IrStmt.forStmt.sizeOf_spec]
      omega
  | _ => cases hblock

theorem IrStmt.inductionOnBlocks {motive : IrStmt → Prop}
    (hstep : ∀ statement, (∀ block ∈ statement.blocks, ∀ inner ∈ block, motive inner) →
      motive statement) (statement : IrStmt) : motive statement :=
  hstep statement fun block _ inner _ => inductionOnBlocks hstep inner
termination_by sizeOf statement
decreasing_by
  have hinner := List.sizeOf_lt_of_mem ‹inner ∈ block›
  have hblock := IrStmt.sizeOf_block ‹block ∈ statement.blocks›
  omega

/-! Scans that look for one kind of expression. -/

section

variable {scan found : IrExpr → Bool}

/-- A scan that asks every child finds exactly what stands in the expression. -/
theorem IrExpr.scan_iff
    (hscan : ∀ expression, scan expression = (found expression || expression.children.any scan))
    (expression : IrExpr) :
    scan expression = true ↔ ∃ part : IrExpr, part.Within expression ∧ found part = true := by
  constructor
  · induction expression using IrExpr.inductionOnChildren with
    | hstep expression ih =>
        intro hfound
        rw [hscan, Bool.or_eq_true, List.any_eq_true] at hfound
        obtain hself | ⟨child, hchild, hfound⟩ := hfound
        · exact ⟨expression, .self, hself⟩
        · obtain ⟨part, hwithin, hpart⟩ := ih child hchild hfound
          exact ⟨part, .child hchild hwithin, hpart⟩
  · rintro ⟨part, hwithin, hpart⟩
    induction hwithin with
    | self => rw [hscan, hpart, Bool.true_or]
    | child hchild _ ih => rw [hscan, List.any_eq_true.mpr ⟨_, hchild, ih⟩, Bool.or_true]

/-- The same of a scan that asks every expression and every block of a block. -/
theorem IrBlock.scan_iff {scanBlock : IrBlock → Bool}
    (hscan : ∀ expression, scan expression = (found expression || expression.children.any scan))
    (hblock : ∀ block, scanBlock block = block.any fun statement =>
      statement.expressions.any scan || statement.blocks.any scanBlock) (block : IrBlock) :
    scanBlock block = true ↔ ∃ part, IrBlock.Occurs part block ∧ found part = true := by
  have hstatement : ∀ statement : IrStmt,
      (statement.expressions.any scan || statement.blocks.any scanBlock) = true →
        ∃ part, IrBlock.Occurs part [statement] ∧ found part = true := by
    intro statement
    induction statement using IrStmt.inductionOnBlocks with
    | hstep statement ih =>
        intro hfound
        rw [Bool.or_eq_true, List.any_eq_true, List.any_eq_true] at hfound
        obtain ⟨expression, hexpression, hfound⟩ | ⟨inner, hinner, hfound⟩ := hfound
        · obtain ⟨part, hwithin, hpart⟩ := (IrExpr.scan_iff hscan expression).mp hfound
          exact ⟨part, .here List.mem_cons_self hexpression hwithin, hpart⟩
        · rw [hblock, List.any_eq_true] at hfound
          obtain ⟨nested, hnested, hfound⟩ := hfound
          obtain ⟨part, hoccurs, hpart⟩ := ih inner hinner nested hnested hfound
          exact ⟨part, .nested List.mem_cons_self hinner (hoccurs.mono (by simpa using hnested)),
            hpart⟩
  constructor
  · intro hfound
    rw [hblock, List.any_eq_true] at hfound
    obtain ⟨statement, hmem, hfound⟩ := hfound
    obtain ⟨part, hoccurs, hpart⟩ := hstatement statement hfound
    exact ⟨part, hoccurs.mono (by simpa using hmem), hpart⟩
  · rintro ⟨part, hoccurs, hpart⟩
    induction hoccurs with
    | here hmem hexpression hwithin =>
        have hfound := (IrExpr.scan_iff hscan _).mpr ⟨part, hwithin, hpart⟩
        rw [hblock, List.any_eq_true]
        exact ⟨_, hmem, by rw [List.any_eq_true.mpr ⟨_, hexpression, hfound⟩, Bool.true_or]⟩
    | nested hmem hinner _ ih =>
        rw [hblock, List.any_eq_true]
        exact ⟨_, hmem, by rw [List.any_eq_true.mpr ⟨_, hinner, ih⟩, Bool.or_true]⟩

end

end Cnegative
