import Cnegative.Backend.Symbol
import Cnegative.Backend.Writes
import Cnegative.Library.Interning

namespace Cnegative

open Library (Line Code Interned)

namespace Llvm

open Backend (hexDigit)

/-! The string literals of a program and their globals. -/

/-- `strings` and `next_string_id` of `cn_llvm_emit_ctx`. -/
abbrev StringTable := Interned (List UInt8)

/-- `cn_llvm_find_string`. -/
def findString (table : StringTable) (value : List UInt8) : Option (Interned.Entry (List UInt8)) :=
  table.find? value

def collectString (table : StringTable) (value : List UInt8) : StringTable :=
  table.intern value

mutual

/-- `cn_llvm_collect_strings_from_expression`; no collector ever fails. -/
def collectExpression (table : StringTable) : IrExpr → StringTable
  | .null _ => table
  | .string _ value => collectString table value
  | .unary _ _ operand => collectExpression table operand
  | .binary _ _ left right => collectExpression (collectExpression table left) right
  | .ifExpr _ condition thenExpr elseExpr =>
      collectExpression (collectExpression (collectExpression table condition) thenExpr) elseExpr
  | .call _ _ _ _ arguments => collectExpressions table arguments
  | .arrayLiteral _ items => collectExpressions table items
  | .sliceFromArray _ base => collectExpression table base
  | .index _ base position => collectExpression (collectExpression table base) position
  | .sliceView _ base start stop =>
      collectOptional (collectOptional (collectExpression table base) start) stop
  | .field _ base _ => collectExpression table base
  | .structLiteral _ _ _ fields => collectFields table fields
  | .ok _ value => collectExpression table value
  | .addr _ target => collectExpression table target
  | .deref _ target => collectExpression table target
  | .zalloc _ _ _ | .int _ _ | .bool _ _ | .local _ _ | .err _ | .alloc _ _ => table

def collectExpressions (table : StringTable) : List IrExpr → StringTable
  | [] => table
  | expression :: rest => collectExpressions (collectExpression table expression) rest

def collectFields (table : StringTable) : List (Name × IrExpr) → StringTable
  | [] => table
  | (_, value) :: rest => collectFields (collectExpression table value) rest

/-- An expression that may be `NULL`. -/
def collectOptional (table : StringTable) : Option IrExpr → StringTable
  | none => table
  | some expression => collectExpression table expression

end

mutual

def collectStatement (table : StringTable) : IrStmt → StringTable
  | .letStmt _ _ _ initializer => collectExpression table initializer
  | .assign target value => collectExpression (collectExpression table target) value
  | .returnStmt value => collectOptional table value
  | .expr value => collectExpression table value
  | .zone _ body => collectBlock table body
  | .free value => collectExpression table value
  | .ifStmt _ _ _ | .whileStmt _ _ | .loop _ | .forStmt _ _ _ _ _ => table

/-- `cn_llvm_collect_strings_from_block`, which takes the control statements apart itself. -/
def collectBlock (table : StringTable) : List IrStmt → StringTable
  | [] => table
  | .ifStmt condition thenBlock elseBlock :: rest =>
      collectBlock
        (collectElse (collectBlock (collectExpression table condition) thenBlock) elseBlock) rest
  | .whileStmt condition body :: rest =>
      collectBlock (collectBlock (collectExpression table condition) body) rest
  | .loop body :: rest => collectBlock (collectBlock table body) rest
  | .forStmt _ _ start stop body :: rest =>
      collectBlock (collectBlock (collectExpression (collectExpression table start) stop) body) rest
  | statement :: rest => collectBlock (collectStatement table statement) rest

def collectElse (table : StringTable) : Option (List IrStmt) → StringTable
  | none => table
  | some block => collectBlock table block

end

def collectProgramStrings (program : IrProgram) : StringTable :=
  program.modules.foldl (fun table module =>
    module.functions.foldl (fun table function => collectBlock table function.body) table)
    Interned.empty

/-- What `cn_backend_emit_llvm_ir` has at hand when it emits the functions. -/
def emitContext (program : IrProgram) : EmitContext where
  structs := program.structTable
  strings := (collectProgramStrings program).values

/-! The collectors visit every place below an expression and in a block. -/

theorem collectExpressions_eq (table : StringTable) (expressions : List IrExpr) :
    collectExpressions table expressions = expressions.foldl collectExpression table := by
  induction expressions generalizing table with
  | nil => rfl
  | cons expression rest ih => rw [collectExpressions, ih, List.foldl_cons]

theorem collectFields_eq (table : StringTable) (fields : List (Name × IrExpr)) :
    collectFields table fields = (fields.map Prod.snd).foldl collectExpression table := by
  induction fields generalizing table with
  | nil => rfl
  | cons field rest ih => rw [collectFields, ih, List.map_cons, List.foldl_cons]

theorem collectOptional_eq (table : StringTable) (expression : Option IrExpr) :
    collectOptional table expression = expression.toList.foldl collectExpression table := by
  cases expression <;> simp [collectOptional]

theorem collectExpression_eq (table : StringTable) (expression : IrExpr) :
    collectExpression table expression =
      expression.children.foldl collectExpression
        (match expression with
          | .string _ value => collectString table value
          | _ => table) := by
  cases expression <;>
    simp [collectExpression, IrExpr.children, collectExpressions_eq, collectFields_eq,
      collectOptional_eq]

theorem collectBlock_cons (table : StringTable) (statement : IrStmt) (rest : List IrStmt) :
    collectBlock table (statement :: rest) =
      collectBlock (statement.blocks.foldl collectBlock
        (statement.expressions.foldl collectExpression table)) rest := by
  cases statement with
  | ifStmt condition thenBlock elseBlock =>
      cases elseBlock <;> simp [collectBlock, collectElse, IrStmt.blocks, IrStmt.expressions]
  | _ =>
      simp [collectBlock, collectStatement, IrStmt.blocks, IrStmt.expressions, collectOptional_eq]

theorem collectBlock_singleton (table : StringTable) (statement : IrStmt) :
    collectBlock table [statement] =
      statement.blocks.foldl collectBlock
        (statement.expressions.foldl collectExpression table) := by
  rw [collectBlock_cons, collectBlock]

theorem collectBlock_eq (table : StringTable) (block : IrBlock) :
    collectBlock table block =
      block.foldl (fun table statement => collectBlock table [statement]) table := by
  induction block generalizing table with
  | nil => rw [collectBlock, List.foldl_nil]
  | cons statement rest ih =>
      rw [collectBlock_cons, ← collectBlock_singleton, ih, List.foldl_cons]

/-! Nothing that was collected is lost. -/

theorem le_collectExpression (expression : IrExpr) (table : StringTable) :
    table ≤ collectExpression table expression := by
  induction expression using IrExpr.inductionOnChildren generalizing table with
  | hstep expression ih =>
      rw [collectExpression_eq]
      refine le_trans ?_ (Library.le_foldl _ ih _)
      split
      · exact Interned.le_intern table _
      · exact le_refl table

theorem le_collectStatement (statement : IrStmt) (table : StringTable) :
    table ≤ collectBlock table [statement] := by
  induction statement using IrStmt.inductionOnBlocks generalizing table with
  | hstep statement ih =>
      rw [collectBlock_singleton]
      refine (Library.le_foldl _ (fun expression _ => le_collectExpression expression) _).trans
        (Library.le_foldl _ (fun block hblock table => ?_) _)
      rw [collectBlock_eq]
      exact Library.le_foldl _ (ih block hblock) table

theorem le_collectBlock (block : IrBlock) (table : StringTable) :
    table ≤ collectBlock table block := by
  rw [collectBlock_eq]
  exact Library.le_foldl _ (fun statement _ => le_collectStatement statement) table

theorem mem_collectExpression {type : TypeRef} {bytes : List UInt8} {expression : IrExpr}
    (hwithin : IrExpr.Within (.string type bytes) expression) (table : StringTable) :
    bytes ∈ (collectExpression table expression).values := by
  induction hwithin generalizing table with
  | self => exact Interned.mem_intern table bytes
  | child hchild _ ih =>
      rw [collectExpression_eq]
      exact Interned.mem_values_foldl hchild (fun child _ => le_collectExpression child) ih _

theorem mem_collectBlock {type : TypeRef} {bytes : List UInt8} {block : IrBlock}
    (hoccurs : IrBlock.Occurs (.string type bytes) block) (table : StringTable) :
    bytes ∈ (collectBlock table block).values := by
  induction hoccurs generalizing table with
  | here hstatement hexpression hwithin =>
      rw [collectBlock_eq]
      refine Interned.mem_values_foldl hstatement
        (fun statement _ => le_collectStatement statement) (fun table => ?_) _
      rw [collectBlock_singleton]
      refine Interned.mem_values_of_le
        (Library.le_foldl _ (fun block _ => le_collectBlock block) _) ?_
      exact Interned.mem_values_foldl hexpression
        (fun expression _ => le_collectExpression expression) (mem_collectExpression hwithin) _
  | nested hstatement hinner _ ih =>
      rw [collectBlock_eq]
      refine Interned.mem_values_foldl hstatement
        (fun statement _ => le_collectStatement statement) (fun table => ?_) _
      rw [collectBlock_singleton]
      exact Interned.mem_values_foldl hinner (fun block _ => le_collectBlock block) ih _

theorem mem_collectProgramStrings {program : IrProgram} {module : IrModule} {function : IrFunction}
    (hmodule : module ∈ program.modules) (hfunction : function ∈ module.functions)
    {type : TypeRef} {bytes : List UInt8}
    (hoccurs : IrBlock.Occurs (.string type bytes) function.body) :
    bytes ∈ (collectProgramStrings program).values := by
  refine Interned.mem_values_foldl hmodule
    (fun module _ => Library.le_foldl _ fun function _ => le_collectBlock function.body)
    (fun table => ?_) _
  exact Interned.mem_values_foldl hfunction (fun function _ => le_collectBlock function.body)
    (mem_collectBlock hoccurs) _

theorem findString_of_mem {table : StringTable} {bytes : List UInt8}
    (hmem : bytes ∈ table.values) : ∃ globalId, findString table bytes = some ⟨bytes, globalId⟩ := by
  obtain ⟨⟨value, globalId⟩, hentry, rfl⟩ := Interned.mem_values.mp hmem
  exact ⟨globalId, Interned.find?_eq_some.mpr ⟨hentry, rfl⟩⟩

/-! Two contexts that agree on the literals of an expression give the same code. -/

section

variable {context context' : EmitContext} {scope : Scope}

theorem lowerArguments_congr {arguments : List IrExpr}
    (harguments : ∀ argument ∈ arguments,
      lowerExpression context scope argument = lowerExpression context' scope argument) :
    lowerArguments context scope arguments = lowerArguments context' scope arguments := by
  induction arguments with
  | nil => rfl
  | cons argument rest ih =>
      obtain ⟨hargument, hrest⟩ := List.forall_mem_cons.mp harguments
      rw [lowerArguments, lowerArguments, hargument, ih hrest]

theorem lowerItems_congr {type : TypeRef} {items : List IrExpr}
    (hitems : ∀ item ∈ items,
      lowerExpression context scope item = lowerExpression context' scope item)
    (index : Nat) (aggregate : Option Nat) :
    lowerItems context scope type index aggregate items =
      lowerItems context' scope type index aggregate items := by
  induction items generalizing index aggregate with
  | nil => rfl
  | cons item rest ih =>
      obtain ⟨hitem, hrest⟩ := List.forall_mem_cons.mp hitems
      simp only [lowerItems, hitem, ih hrest]

theorem lowerFields_congr {decl : IrStruct} {type : TypeRef} {fields : List (Name × IrExpr)}
    (hfields : ∀ value ∈ fields.map Prod.snd,
      lowerExpression context scope value = lowerExpression context' scope value)
    (aggregate : Option Nat) :
    lowerFields context scope decl type aggregate fields =
      lowerFields context' scope decl type aggregate fields := by
  induction fields generalizing aggregate with
  | nil => rfl
  | cons field rest ih =>
      obtain ⟨hfield, hrest⟩ := List.forall_mem_cons.mp hfields
      simp only [lowerFields, hfield, ih hrest]

theorem lowerBound_congr {bound : Option IrExpr}
    (hbound : ∀ expression ∈ bound.toList,
      lowerExpression context scope expression = lowerExpression context' scope expression)
    (default : Emit LlvmValue) :
    lowerBound context scope default bound = lowerBound context' scope default bound := by
  cases bound with
  | none => rfl
  | some expression => rw [lowerBound, lowerBound, hbound expression (by simp)]

/-- The same structs, and the same answers for the literals that occur. -/
structure EmitContext.Agree (context context' : EmitContext) (occurs : IrExpr → Prop) : Prop where
  structs : context.structs = context'.structs
  strings : ∀ type bytes, occurs (.string type bytes) →
    context.strings.findIdx? (fun entry => entry == bytes) =
      context'.strings.findIdx? (fun entry => entry == bytes)

variable {occurs : IrExpr → Prop}

theorem lowerExpression_congr_step (hagree : context.Agree context' occurs) {expression : IrExpr}
    (hoccurs : occurs expression)
    (hchildren : ∀ child ∈ expression.children,
      lowerExpression context scope child = lowerExpression context' scope child) :
    lowerExpression context scope expression = lowerExpression context' scope expression := by
  have hstructs := hagree.structs
  cases expression with
  | string type bytes => simp only [lowerExpression, hagree.strings type bytes hoccurs]
  | call type target moduleName functionName arguments =>
      have harguments : lowerArguments context scope arguments =
          lowerArguments context' scope arguments := lowerArguments_congr hchildren
      cases target <;> simp only [lowerExpression, hstructs, harguments]
  | arrayLiteral type items =>
      have hitems : ∀ index aggregate, lowerItems context scope type index aggregate items =
          lowerItems context' scope type index aggregate items := lowerItems_congr hchildren
      simp only [lowerExpression, hitems]
  | structLiteral type moduleName typeName fields =>
      have hfields : ∀ decl aggregate, lowerFields context scope decl type aggregate fields =
          lowerFields context' scope decl type aggregate fields :=
        fun decl => lowerFields_congr hchildren
      simp only [lowerExpression, hstructs, hfields]
  | sliceView type base start stop =>
      have hbase := hchildren base List.mem_cons_self
      have hstart := lowerBound_congr fun bound (hbound : bound ∈ start.toList) =>
        hchildren bound (List.mem_cons_of_mem base (List.mem_append_left _ hbound))
      have hstop := lowerBound_congr fun bound (hbound : bound ∈ stop.toList) =>
        hchildren bound (List.mem_cons_of_mem base (List.mem_append_right _ hbound))
      simp only [lowerExpression, hbase, hstart, hstop]
  | binary type op left right =>
      have hleft := hchildren left (by simp [IrExpr.children])
      have hright := hchildren right (by simp [IrExpr.children])
      cases op <;> simp only [lowerExpression, hstructs, hleft, hright]
  | ifExpr type condition thenExpr elseExpr =>
      simp only [lowerExpression, hchildren condition (by simp [IrExpr.children]),
        hchildren thenExpr (by simp [IrExpr.children]),
        hchildren elseExpr (by simp [IrExpr.children])]
  | index type base position =>
      simp only [lowerExpression, hchildren base (by simp [IrExpr.children]),
        hchildren position (by simp [IrExpr.children])]
  | field type base fieldName =>
      simp only [lowerExpression, hstructs, hchildren base (by simp [IrExpr.children])]
  | unary _ _ inner | sliceFromArray _ inner | ok _ inner | addr _ inner | deref _ inner =>
      simp only [lowerExpression, hchildren inner (by simp [IrExpr.children])]
  | _ => simp only [lowerExpression]

theorem lowerExpression_congr (hagree : context.Agree context' occurs)
    (hclosed : ∀ expression, occurs expression → ∀ child ∈ expression.children, occurs child)
    {expression : IrExpr} (hoccurs : occurs expression) :
    lowerExpression context scope expression = lowerExpression context' scope expression := by
  induction expression using IrExpr.inductionOnChildren with
  | hstep expression ih =>
      exact lowerExpression_congr_step hagree hoccurs fun child hchild =>
        ih child hchild (hclosed expression hoccurs child hchild)

theorem emitBlock_congr {block : IrBlock}
    (hstatements : ∀ statement ∈ block, ∀ scope,
      emitStatement context scope statement = emitStatement context' scope statement)
    (scope : Scope) : emitBlock context scope block = emitBlock context' scope block := by
  induction block generalizing scope with
  | nil => rfl
  | cons statement rest ih =>
      obtain ⟨hstatement, hrest⟩ := List.forall_mem_cons.mp hstatements
      simp only [emitBlock, hstatement, ih hrest]

theorem emitStatement_congr_step {statement : IrStmt}
    (hexpressions : ∀ expression ∈ statement.expressions, ∀ scope,
      lowerExpression context scope expression = lowerExpression context' scope expression)
    (hblocks : ∀ block ∈ statement.blocks, ∀ scope,
      emitBlock context scope block = emitBlock context' scope block) :
    emitStatement context scope statement = emitStatement context' scope statement := by
  cases statement with
  | letStmt _ _ _ value | expr value | free value =>
      simp only [emitStatement, hexpressions value (by simp [IrStmt.expressions])]
  | assign target value =>
      simp only [emitStatement, hexpressions target (by simp [IrStmt.expressions]),
        hexpressions value (by simp [IrStmt.expressions])]
  | returnStmt value =>
      cases value with
      | none => simp only [emitStatement]
      | some value =>
          simp only [emitStatement, hexpressions value (by simp [IrStmt.expressions])]
  | zone _ body | loop body =>
      simp only [emitStatement, hblocks body (by simp [IrStmt.blocks])]
  | ifStmt condition thenBlock elseBlock =>
      have helse : ∀ elseLabel mergeLabel, emitElse context scope elseLabel mergeLabel elseBlock =
          emitElse context' scope elseLabel mergeLabel elseBlock := by
        intro elseLabel mergeLabel
        cases elseBlock with
        | none => simp only [emitElse]
        | some block => simp only [emitElse, hblocks block (by simp [IrStmt.blocks])]
      simp only [emitStatement, hexpressions condition (by simp [IrStmt.expressions]),
        hblocks thenBlock (by simp [IrStmt.blocks]), helse]
  | whileStmt condition body =>
      simp only [emitStatement, hexpressions condition (by simp [IrStmt.expressions]),
        hblocks body (by simp [IrStmt.blocks])]
  | forStmt _ _ start stop body =>
      simp only [emitStatement, hexpressions start (by simp [IrStmt.expressions]),
        hexpressions stop (by simp [IrStmt.expressions]), hblocks body (by simp [IrStmt.blocks])]

theorem emitStatement_congr (hagree : context.Agree context' occurs)
    (hclosed : ∀ expression, occurs expression → ∀ child ∈ expression.children, occurs child)
    {statement : IrStmt} (hoccurs : ∀ part, IrBlock.Occurs part [statement] → occurs part)
    (scope : Scope) :
    emitStatement context scope statement = emitStatement context' scope statement := by
  induction statement using IrStmt.inductionOnBlocks generalizing scope with
  | hstep statement ih =>
      refine emitStatement_congr_step (fun expression hexpression scope => ?_)
        (fun block hblock scope => emitBlock_congr (fun inner hinner scope => ?_) scope)
      · exact lowerExpression_congr hagree hclosed
          (hoccurs expression (.here List.mem_cons_self hexpression .self))
      · refine ih block hblock inner hinner (fun part hpart => hoccurs part ?_) scope
        exact .nested List.mem_cons_self hblock (hpart.mono (by simpa using hinner))

/-- The emission of a function looks up no literal but those of its body. -/
theorem emitFunction_congr {function : IrFunction}
    (hagree : context.Agree context' fun part => IrBlock.Occurs part function.body) :
    emitFunction context function = emitFunction context' function := by
  have hblock := emitBlock_congr fun statement hstatement scope =>
    emitStatement_congr hagree (fun _ hoccurs _ hchild => hoccurs.of_child hchild)
      (fun part hpart => hpart.mono (by simpa using hstatement)) scope
  simp only [emitFunction, emitBody, hblock]

end

/-! The string globals. -/

def backslash : UInt8 := 92

def quote : UInt8 := 34

def emitEscapedBytes : Text → Text
  | [] => []
  | ch :: rest =>
      (if 32 ≤ ch && ch ≤ 126 && ch != backslash && ch != quote then [ch]
        else [backslash, hexDigit (ch / 16), hexDigit (ch % 16)]) ++ emitEscapedBytes rest

/-- A line of `cn_llvm_emit_string_globals`; `contents` is the text between the quotes. -/
structure StringGlobal where
  id : Nat
  length : Nat
  contents : Text
  deriving DecidableEq, Repr

def emitStringGlobals (table : StringTable) : List StringGlobal :=
  table.entries.map fun entry =>
    { id := entry.id
      length := entry.value.length + 1
      contents := emitEscapedBytes entry.value ++ [backslash, '0'.toUInt8, '0'.toUInt8] }

/-! How LLVM assembly reads the text of a string constant. -/

def hexValue (ch : UInt8) : Option UInt8 :=
  if isAsciiDigit ch then some (ch - '0'.toUInt8)
  else if 'A'.toUInt8 ≤ ch && ch ≤ 'F'.toUInt8 then some (ch - 'A'.toUInt8 + 10)
  else if 'a'.toUInt8 ≤ ch && ch ≤ 'f'.toUInt8 then some (ch - 'a'.toUInt8 + 10)
  else none

/-- Two backslashes are one, a backslash before two hexadecimal digits is the byte they
spell, and all else stands for itself. -/
def constantBytes : Text → List UInt8
  | [] => []
  | [ch] => [ch]
  | [ch, first] =>
      if ch = backslash ∧ first = backslash then [backslash] else ch :: constantBytes [first]
  | ch :: first :: second :: behind =>
      if ch = backslash then
        if first = backslash then backslash :: constantBytes (second :: behind)
        else
          match hexValue first, hexValue second with
          | some high, some low => (16 * high + low) :: constantBytes behind
          | _, _ => ch :: constantBytes (first :: second :: behind)
      else ch :: constantBytes (first :: second :: behind)

theorem hexValue_hexDigit {value : UInt8} (hlt : value < 16) :
    hexValue (hexDigit value) = some value := by
  have hall : ∀ digit : Fin 16,
      hexValue (hexDigit (UInt8.ofNat digit)) = some (UInt8.ofNat digit) := by decide
  simpa using hall ⟨value.toNat, UInt8.lt_iff_toNat_lt.mp hlt⟩

theorem hexDigit_ne {value : UInt8} (hlt : value < 16) :
    hexDigit value ≠ backslash ∧ hexDigit value ≠ quote := by
  have hall : ∀ digit : Fin 16, hexDigit (UInt8.ofNat digit) ≠ backslash ∧
      hexDigit (UInt8.ofNat digit) ≠ quote := by decide
  simpa using hall ⟨value.toNat, UInt8.lt_iff_toNat_lt.mp hlt⟩

theorem div_sixteen_lt (ch : UInt8) : ch / 16 < 16 := by
  rw [UInt8.lt_iff_toNat_lt, UInt8.toNat_div]
  exact Nat.div_lt_of_lt_mul ch.toNat_lt

theorem mod_sixteen_lt (ch : UInt8) : ch % 16 < 16 := by
  rw [UInt8.lt_iff_toNat_lt, UInt8.toNat_mod]
  exact Nat.mod_lt _ (by decide)

theorem sixteen_mul_div_add_mod (ch : UInt8) : 16 * (ch / 16) + ch % 16 = ch := by
  have hlt := ch.toNat_lt
  rw [← UInt8.toNat_inj]
  simp only [UInt8.toNat_add, UInt8.toNat_mul, UInt8.toNat_div, UInt8.toNat_mod,
    UInt8.reduceToNat]
  omega

theorem constantBytes_cons {ch : UInt8} (hne : ch ≠ backslash) (rest : Text) :
    constantBytes (ch :: rest) = ch :: constantBytes rest := by
  match rest with
  | [] => simp [constantBytes]
  | [first] => simp [constantBytes, hne]
  | first :: second :: behind => rw [constantBytes, if_neg hne]

theorem constantBytes_hex (ch : UInt8) (rest : Text) :
    constantBytes (backslash :: hexDigit (ch / 16) :: hexDigit (ch % 16) :: rest) =
      ch :: constantBytes rest := by
  rw [constantBytes, if_pos rfl, if_neg (hexDigit_ne (div_sixteen_lt ch)).1,
    hexValue_hexDigit (div_sixteen_lt ch), hexValue_hexDigit (mod_sixteen_lt ch)]
  simp only [sixteen_mul_div_add_mod]

theorem constantBytes_emitEscapedBytes (value : List UInt8) (rest : Text) :
    constantBytes (emitEscapedBytes value ++ rest) = value ++ constantBytes rest := by
  induction value with
  | nil => rfl
  | cons ch value ih =>
      rw [emitEscapedBytes, List.append_assoc]
      split
      · next hplain =>
          have hne : ch ≠ backslash := by
            simp only [Bool.and_eq_true, bne_iff_ne] at hplain
            exact hplain.1.2
          rw [List.singleton_append, constantBytes_cons hne, ih, List.cons_append]
      · simp only [List.cons_append, List.nil_append, constantBytes_hex, ih]

theorem quote_notMem_emitEscapedBytes (value : List UInt8) : quote ∉ emitEscapedBytes value := by
  induction value with
  | nil => exact List.not_mem_nil
  | cons ch value ih =>
      rw [emitEscapedBytes, List.mem_append, not_or]
      refine ⟨?_, ih⟩
      split
      · next hplain =>
          simp only [Bool.and_eq_true, bne_iff_ne] at hplain
          exact fun hmem => hplain.2 (List.mem_singleton.mp hmem).symm
      · have hhigh := (hexDigit_ne (div_sixteen_lt ch)).2
        have hlow := (hexDigit_ne (mod_sixteen_lt ch)).2
        rw [List.mem_cons, List.mem_pair, not_or, not_or]
        exact ⟨by decide, hhigh.symm, hlow.symm⟩

/-- A global is read back as the bytes of its literal and a zero byte, of the length it
declares, and ends at its own quote. -/
theorem emitStringGlobals_read {table : StringTable} {global : StringGlobal}
    (hglobal : global ∈ emitStringGlobals table) :
    ∃ bytes, findString table bytes = some ⟨bytes, global.id⟩ ∧
      constantBytes global.contents = bytes ++ [0] ∧ global.length = bytes.length + 1 ∧
      quote ∉ global.contents := by
  obtain ⟨entry, hentry, rfl⟩ := List.mem_map.mp hglobal
  refine ⟨entry.value, Interned.find?_eq_some.mpr ⟨hentry, rfl⟩, ?_, rfl, ?_⟩
  · rw [constantBytes_emitEscapedBytes]
    rfl
  · rw [List.mem_append, not_or]
    exact ⟨quote_notMem_emitEscapedBytes entry.value, by decide⟩

theorem mem_emitStringGlobals {table : StringTable} {bytes : List UInt8} {globalId : Nat}
    (hfind : findString table bytes = some ⟨bytes, globalId⟩) :
    ∃ global ∈ emitStringGlobals table, global.id = globalId ∧
      global.length = bytes.length + 1 ∧ constantBytes global.contents = bytes ++ [0] := by
  refine ⟨_, List.mem_map_of_mem (Interned.find?_mem hfind).1, rfl, rfl, ?_⟩
  rw [constantBytes_emitEscapedBytes]
  rfl

theorem emitStringGlobals_id_nodup (table : StringTable) :
    ((emitStringGlobals table).map StringGlobal.id).Nodup := by
  rw [emitStringGlobals, List.map_map]
  exact table.nodup_ids

theorem emitStringGlobals_contents_nodup (table : StringTable) :
    ((emitStringGlobals table).map fun global => constantBytes global.contents).Nodup := by
  have hbytes : ((emitStringGlobals table).map fun global => constantBytes global.contents) =
      (table.entries.map Interned.Entry.value).map (· ++ [0]) := by
    rw [emitStringGlobals, List.map_map, List.map_map]
    refine List.map_congr_left fun entry _ => ?_
    exact constantBytes_emitEscapedBytes entry.value _
  rw [hbytes]
  exact table.distinct.map (List.append_left_injective [0])

/-- A literal in the table is lowered to the address of its global. -/
theorem lowerExpression_string {program : IrProgram} {bytes : List UInt8} {globalId : Nat}
    (hfind : findString (collectProgramStrings program) bytes = some ⟨bytes, globalId⟩)
    (scope : Scope) (type : TypeRef) (state : EmitState) :
    (lowerExpression (emitContext program) scope (.string type bytes)).value state =
      some (.register .str state.nextTemp,
        [.inst (.stringGep state.nextTemp (bytes.length + 1) globalId)],
        { state with nextTemp := state.nextTemp + 1 }) := by
  have hindex : (emitContext program).strings.findIdx? (fun entry => entry == bytes) =
      some globalId := Interned.findIdx?_values hfind
  simp only [lowerExpression, Lowered.ofValue, hindex]
  rfl

theorem string_collection_covers_lowering (program : IrProgram) :
    (∀ module ∈ program.modules, ∀ function ∈ module.functions,
      -- what the emission can look up
      (∀ context : EmitContext,
        context.Agree (emitContext program) (fun part => IrBlock.Occurs part function.body) →
          emitFunction context function = emitFunction (emitContext program) function) ∧
      -- is found
      (∀ type bytes, IrBlock.Occurs (.string type bytes) function.body →
        ∃ global ∈ emitStringGlobals (collectProgramStrings program),
          findString (collectProgramStrings program) bytes = some ⟨bytes, global.id⟩ ∧
          global.length = bytes.length + 1 ∧ constantBytes global.contents = bytes ++ [0] ∧
          ∀ scope state,
            (lowerExpression (emitContext program) scope (.string type bytes)).value state =
              some (.register .str state.nextTemp,
                [.inst (.stringGep state.nextTemp global.length global.id)],
                { state with nextTemp := state.nextTemp + 1 })) ∧
      -- and nothing else is named
      ∀ code, emitFunction (emitContext program) function = some code →
        ∀ result length globalId, Line.inst (.stringGep result length globalId) ∈ code →
          ∃ global ∈ emitStringGlobals (collectProgramStrings program),
            global.id = globalId ∧ global.length = length) ∧
    ((emitStringGlobals (collectProgramStrings program)).map StringGlobal.id).Nodup ∧
    ((emitStringGlobals (collectProgramStrings program)).map fun global =>
      constantBytes global.contents).Nodup ∧
    ∀ global ∈ emitStringGlobals (collectProgramStrings program),
      quote ∉ global.contents ∧ (constantBytes global.contents).length = global.length := by
  refine ⟨fun module hmodule function hfunction => ⟨?_, ?_, ?_⟩, emitStringGlobals_id_nodup _,
    emitStringGlobals_contents_nodup _, ?_⟩
  · exact fun context hagree => emitFunction_congr hagree
  · intro type bytes hoccurs
    obtain ⟨globalId, hfind⟩ :=
      findString_of_mem (mem_collectProgramStrings hmodule hfunction hoccurs)
    obtain ⟨global, hglobal, rfl, hlength, hcontents⟩ := mem_emitStringGlobals hfind
    refine ⟨global, hglobal, hfind, hlength, hcontents, fun scope state => ?_⟩
    rw [hlength]
    exact lowerExpression_string hfind scope type state
  · intro code hemit result length globalId hinst
    cases origin_of_emitFunction hemit hinst with
    | plain hsymbol hglobal => cases hglobal
    | emitter hmem hsymbol hglobal => cases hsymbol
    | builtin hoccurs hnamed hsymbol hglobal => cases hsymbol
    | @literal type bytes found hoccurs hindex hsymbol hglobal =>
        obtain ⟨globalId', hfind⟩ :=
          findString_of_mem (mem_collectProgramStrings hmodule hfunction hoccurs)
        obtain rfl : globalId' = found :=
          Option.some.inj ((Interned.findIdx?_values hfind).symm.trans hindex)
        obtain ⟨global, hmem, hid, hlength, _⟩ := mem_emitStringGlobals hfind
        simp only [Inst.stringGlobal?, Option.some.injEq, Prod.mk.injEq] at hglobal
        exact ⟨global, hmem, hid.trans hglobal.2.symm, hlength.trans hglobal.1.symm⟩
  · intro global hglobal
    obtain ⟨bytes, _, hcontents, hlength, hquote⟩ := emitStringGlobals_read hglobal
    exact ⟨hquote, by rw [hcontents, hlength, List.length_append, List.length_singleton]⟩

/-- One literal twice, inside a loop of a zone and behind it. -/
def zoneLiteralProgram : IrProgram where
  modules := [{
    name := "main"
    consts := []
    structs := []
    functions := [{
      isPublic := true
      moduleName := "main"
      name := "main"
      returnType := .int
      parameters := []
      body := [
        .zone "z" [.whileStmt (.bool .bool true) [.expr (.string .str [34, 92, 7])]],
        .letStmt "s" false .str (.string .str [34, 92, 7])] }] }]

theorem string_collection_zoneLiteral :
    ∃ global ∈ emitStringGlobals (collectProgramStrings zoneLiteralProgram),
      global.length = 4 ∧ constantBytes global.contents = [34, 92, 7, 0] := by
  obtain ⟨_, hliteral, _⟩ := (string_collection_covers_lowering zoneLiteralProgram).1 _
    List.mem_cons_self _ List.mem_cons_self
  obtain ⟨global, hglobal, _, hlength, hcontents, _⟩ := hliteral .str [34, 92, 7]
    (.nested List.mem_cons_self List.mem_cons_self
      (.nested List.mem_cons_self List.mem_cons_self
        (.here List.mem_cons_self List.mem_cons_self .self)))
  exact ⟨global, hglobal, hlength, hcontents⟩

end Llvm

end Cnegative
