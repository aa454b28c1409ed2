import Cnegative.Backend.Builtins
import Cnegative.Backend.Sized

namespace Cnegative

namespace Llvm

/-! `cn_llvm_validate_module` and below: what the backend refuses before it prints anything. -/

/-- What is reported as E3021, without its offset; `unfinished` is a comparison of types
that does not end. -/
inductive Rejection where
  | type (type : TypeRef)
  | feature (name : String)
  | unfinished
  deriving DecidableEq, Repr

abbrev Validation := Except Rejection Unit

def isVoidLike (type : TypeRef) : Bool := type = .void || type = .unknown

def supportsPrint : TypeRef → Bool
  | .int | .u8 | .bool | .str => true
  | _ => false

/-! The builtin calls that `cn_llvm_validate_call` knows, by their number of arguments;
`print` and `println` look at the argument too. -/

def zeroArgumentCalls : List (Name × Name) :=
  [ ("std.io", "read_line"), ("std.bytes", "new"), ("std.lines", "new"), ("std.term", "is_tty"),
    ("std.term", "columns"), ("std.term", "rows"), ("std.term", "term_name"),
    ("std.term", "supports_truecolor"), ("std.term", "supports_256color"),
    ("std.term", "supports_unicode"), ("std.term", "supports_mouse"), ("std.term", "read_byte"),
    ("std.term", "read_event"), ("std.term", "read_paste"), ("std.term", "reset_style"),
    ("std.term", "enable_mouse"), ("std.term", "disable_mouse"),
    ("std.term", "enable_bracketed_paste"), ("std.term", "disable_bracketed_paste"),
    ("std.term", "flush"), ("std.term", "clear"), ("std.term", "clear_line"),
    ("std.term", "clear_line_left"), ("std.term", "clear_line_right"),
    ("std.term", "save_cursor"), ("std.term", "restore_cursor"), ("std.term", "hide_cursor"),
    ("std.term", "show_cursor"), ("std.term", "enter_alt_screen"),
    ("std.term", "leave_alt_screen"), ("std.term", "reset_scroll_region"),
    ("std.term", "enter_raw_mode"), ("std.term", "leave_raw_mode"), ("std.process", "platform"),
    ("std.process", "arch"), ("std.text", "new"), ("std.time", "now_ms"), ("std.fs", "cwd") ]

def copyCalls : List (Name × Name) :=
  [ ("", "str_copy"), ("std.strings", "copy") ]

def concatCalls : List (Name × Name) :=
  [ ("", "str_concat"), ("std.strings", "concat") ]

def oneArgumentCalls : List (Name × Name) :=
  [ ("std.math", "abs"), ("", "__zone_release"), ("std.math", "sign"), ("std.math", "square"),
    ("std.math", "cube"), ("std.math", "is_even"), ("std.math", "is_odd"),
    ("std.bytes", "with_capacity"), ("std.bytes", "release"), ("std.bytes", "clear"),
    ("std.bytes", "length"), ("std.bytes", "capacity"), ("std.bytes", "view"),
    ("std.ipc", "stdin_close"), ("std.ipc", "wait"), ("std.ipc", "kill"),
    ("std.ipc", "release"), ("std.lines", "with_capacity"), ("std.lines", "release"),
    ("std.lines", "clear"), ("std.lines", "length"), ("std.lines", "capacity"),
    ("std.x11", "pump"), ("std.x11", "close"), ("std.strings", "len"),
    ("std.strings", "from_int"), ("std.parse", "to_int"), ("std.parse", "to_bool"),
    ("std.net", "is_ipv4"), ("std.net", "accept"), ("std.net", "close"), ("std.env", "has"),
    ("std.env", "get"), ("std.term", "read_byte_timeout"), ("std.term", "read_event_timeout"),
    ("std.term", "codepoint_width"), ("std.term", "string_width"), ("std.fs", "exists"),
    ("std.fs", "create_dir"), ("std.fs", "remove_dir"), ("std.fs", "read_text"),
    ("std.fs", "file_size"), ("std.fs", "remove"), ("std.io", "write"),
    ("std.io", "write_line"), ("std.term", "write"), ("std.term", "buffer_free"),
    ("std.process", "exit"), ("std.time", "sleep_ms"), ("std.text", "with_capacity"),
    ("std.text", "release"), ("std.text", "clear"), ("std.text", "length"),
    ("std.text", "capacity"), ("std.text", "build"), ("std.text", "view"), ("std.path", "stem"),
    ("std.path", "extension"), ("std.path", "is_absolute"), ("std.path", "file_name"),
    ("std.path", "parent") ]

def twoArgumentCalls : List (Name × Name) :=
  [ ("std.math", "min"), ("std.math", "max"), ("std.math", "gcd"), ("std.math", "lcm"),
    ("std.math", "distance"), ("std.ipc", "spawn"), ("std.bytes", "push"),
    ("std.bytes", "append"), ("std.bytes", "get"), ("std.ipc", "stdin_write"),
    ("std.ipc", "stdin_write_line"), ("std.ipc", "stdout_read"),
    ("std.ipc", "stdout_read_line"), ("std.ipc", "stderr_read"),
    ("std.ipc", "stderr_read_line"), ("std.lines", "get"), ("std.lines", "push"),
    ("std.lines", "remove"), ("std.strings", "eq"), ("std.strings", "starts_with"),
    ("std.strings", "ends_with"), ("std.net", "tcp_connect"), ("std.net", "tcp_listen"),
    ("std.net", "udp_bind"), ("std.net", "udp_recv_from"), ("std.term", "decode_codepoint"),
    ("std.term", "next_codepoint_offset"), ("std.term", "buffer_new"),
    ("std.term", "buffer_clear"), ("std.term", "render_diff"), ("std.fs", "copy"),
    ("std.fs", "write_text"), ("std.fs", "append_text"), ("std.fs", "rename"),
    ("std.fs", "move"), ("std.net", "join_host_port"), ("std.net", "send"), ("std.net", "recv"),
    ("std.text", "append"), ("std.text", "append_int"), ("std.text", "push_byte"),
    ("std.path", "join") ]

def threeArgumentCalls : List (Name × Name) :=
  [ ("std.math", "clamp"), ("std.math", "between"), ("std.bytes", "set"),
    ("std.ipc", "request_line"), ("std.lines", "set"), ("std.lines", "insert"),
    ("std.term", "set_style"), ("std.term", "rgb"), ("std.term", "buffer_get"),
    ("std.term", "render_diff_clip"), ("std.x11", "open_window") ]

structure ArityGroup where
  calls : List (Name × Name)
  count : Nat
  feature : String

/-- The tests of `cn_llvm_validate_call`, in their order. -/
def arityGroups : List ArityGroup :=
  [ ⟨[("", "print")], 1, "unexpected builtin print arity"⟩,
    ⟨[("", "println")], 1, "unexpected builtin println arity"⟩,
    ⟨[("", "input")], 0, "unexpected builtin input arity"⟩,
    ⟨zeroArgumentCalls, 0, "unexpected builtin zero-argument stdlib arity"⟩,
    ⟨copyCalls, 1, "unexpected builtin string-copy arity"⟩,
    ⟨concatCalls, 2, "unexpected builtin string-concat arity"⟩,
    ⟨oneArgumentCalls, 1, "unexpected builtin stdlib arity"⟩,
    ⟨twoArgumentCalls, 2, "unexpected builtin stdlib arity"⟩,
    ⟨threeArgumentCalls, 3, "unexpected builtin stdlib arity"⟩,
    ⟨[("std.term", "move_cursor")], 2, "unexpected builtin stdlib arity"⟩,
    ⟨[("std.term", "set_scroll_region")], 2, "unexpected builtin stdlib arity"⟩,
    ⟨[("std.net", "udp_send_to")], 4, "unexpected builtin stdlib arity"⟩,
    ⟨[("std.term", "buffer_set")], 4, "unexpected builtin stdlib arity"⟩,
    ⟨[("std.term", "buffer_resize")], 4, "unexpected builtin stdlib arity"⟩ ]

def findArity (moduleName functionName : Name) : Option ArityGroup :=
  arityGroups.find? fun group => group.calls.contains (moduleName, functionName)

/-- What `print` and `println` ask of their argument. -/
def validateDisplay (moduleName functionName : Name) (arguments : List TypeRef) : Validation :=
  if moduleName = "" ∧ (functionName = "print" ∨ functionName = "println") then
    if arguments.head?.any supportsPrint then return ()
    else throw (.feature (functionName ++ " on non-display values"))
  else return ()

section

variable (structs : StructTable)

def validateType : TypeRef → Validation
  | .int | .u8 | .bool | .str | .void | .null => return ()
  | .result inner =>
      if isVoidLike inner then throw (.type (.result inner)) else validateType inner
  | .ptr inner => if isVoidLike inner then throw (.type (.ptr inner)) else validateType inner
  | .slice inner => if isVoidLike inner then throw (.type (.slice inner)) else validateType inner
  | .array inner size =>
      if isVoidLike inner then throw (.type (.array inner size)) else validateType inner
  | .named moduleName name =>
      if (structs.find moduleName name).isSome then return ()
      else throw (.type (.named moduleName name))
  | .unknown => throw (.type .unknown)

variable (fuel : Nat)

/-- The end of the case of a binary operator. -/
def validateEquality (op : BinaryOp) (type : TypeRef) : Validation :=
  if op = .equal ∨ op = .notEqual then
    match supportsEquality structs fuel type with
    | some true => return ()
    | some false => throw (.feature "equality on aggregate values")
    | none => throw .unfinished
  else return ()

mutual

def validateExpression : IrExpr → Validation
  | .int type _ | .bool type _ | .string type _ | .null type | .local type _ | .err type =>
      validateType structs type
  | .unary type _ operand => do
      validateType structs type
      validateExpression operand
  | .binary type op left right => do
      validateType structs type
      validateExpression left
      validateExpression right
      validateEquality structs fuel op left.type
  | .ifExpr type condition thenExpr elseExpr => do
      validateType structs type
      validateExpression condition
      validateExpression thenExpr
      validateExpression elseExpr
  | .call type target moduleName functionName arguments => do
      validateType structs type
      match target with
      | .builtin =>
          match findArity moduleName functionName with
          | none => throw (.feature "unknown builtin call target")
          | some group =>
              if arguments.length = group.count then do
                validateExpressions arguments
                validateDisplay moduleName functionName (arguments.map IrExpr.type)
              else throw (.feature group.feature)
      | _ => validateExpressions arguments
  | .arrayLiteral type items => do
      validateType structs type
      validateExpressions items
  | .sliceFromArray type base => do
      validateType structs type
      validateExpression base
  | .index type base index => do
      validateType structs type
      validateExpression base
      validateExpression index
  | .sliceView type base start stop => do
      validateType structs type
      validateExpression base
      validateBound start
      validateBound stop
  | .field type base _ => do
      validateType structs type
      validateExpression base
  | .structLiteral type _ _ fields => do
      validateType structs type
      validateFields fields
  | .ok type value => do
      validateType structs type
      validateExpression value
  | .alloc type allocType | .zalloc type allocType _ => do
      validateType structs type
      validateType structs allocType
  | .addr type target | .deref type target => do
      validateType structs type
      validateExpression target

def validateExpressions : List IrExpr → Validation
  | [] => return ()
  | expression :: rest => do
      validateExpression expression
      validateExpressions rest

def validateBound : Option IrExpr → Validation
  | none => return ()
  | some bound => validateExpression bound

def validateFields : List (Name × IrExpr) → Validation
  | [] => return ()
  | (_, value) :: rest => do
      validateExpression value
      validateFields rest

end

mutual

def validateStatement : IrStmt → Validation
  | .letStmt _ _ type initializer => do
      validateType structs type
      validateExpression structs fuel initializer
  | .assign target value => do
      validateExpression structs fuel target
      validateExpression structs fuel value
  | .returnStmt none => return ()
  | .returnStmt (some value) | .expr value | .free value => validateExpression structs fuel value
  | .zone _ body | .loop body => validateBlock body
  | .ifStmt condition thenBlock elseBlock => do
      validateExpression structs fuel condition
      validateBlock thenBlock
      validateElse elseBlock
  | .whileStmt condition body => do
      validateExpression structs fuel condition
      validateBlock body
  | .forStmt _ type start stop body => do
      validateType structs type
      validateExpression structs fuel start
      validateExpression structs fuel stop
      validateBlock body

def validateElse : Option (List IrStmt) → Validation
  | none => return ()
  | some block => validateBlock block

def validateBlock : List IrStmt → Validation
  | [] => return ()
  | statement :: rest => do
      validateStatement statement
      validateBlock rest

end

def validateFunction (function : IrFunction) : Validation := do
  validateType structs function.returnType
  function.parameters.forM fun param => validateType structs param.type
  validateBlock structs fuel function.body

def validateStruct (decl : IrStruct) : Validation :=
  decl.fields.forM fun field => validateType structs field.type

def validateModule (module : IrModule) : Validation := do
  module.structs.forM (validateStruct structs)
  module.functions.forM (validateFunction structs fuel)

end

def validateProgram (fuel : Nat) (program : IrProgram) : Validation :=
  program.modules.forM (validateModule program.structTable fuel)

/-! What a pass without a report says. -/

namespace Validation

theorem seq {first next : Validation} :
    (first >>= fun _ => next) = .ok () ↔ first = .ok () ∧ next = .ok () := by
  cases first with
  | error rejection => simp [bind, Except.bind]
  | ok done => simp [bind, Except.bind]

theorem forM {α : Type} {items : List α} {validate : α → Validation} :
    items.forM validate = .ok () ↔ ∀ item ∈ items, validate item = .ok () := by
  induction items with
  | nil => simp [pure, Except.pure]
  | cons item rest ih =>
      rw [List.forall_mem_cons, ← ih]
      exact seq

end Validation

/-- Both tables of the backend have the call, with the same number of arguments, or it is
one that the emission has a case of its own for. -/
def tablesAgree (moduleName functionName : Name) (count : Nat) : Bool :=
  match findNamedCall moduleName functionName with
  | some entry => entry.argumentCount = count
  | none => [("", "print", 1), ("", "println", 1), ("std.strings", "eq", 2)].contains
      (moduleName, functionName, count)

theorem arityGroups_agree : (arityGroups.all fun group =>
    group.calls.all fun call => tablesAgree call.1 call.2 group.count) = true := by
  decide +kernel

theorem arityGroups_count : (arityGroups.all fun group => group.count ≤ 4) = true := by
  decide +kernel

theorem tablesAgree_of_findArity {moduleName functionName : Name} {group : ArityGroup}
    (hfind : findArity moduleName functionName = some group) :
    tablesAgree moduleName functionName group.count = true := by
  have hgroup := List.all_eq_true.mp arityGroups_agree group (List.mem_of_find?_eq_some hfind)
  have hcall := List.find?_some hfind
  exact List.all_eq_true.mp hgroup _ (List.contains_iff_mem.mp hcall)

theorem count_le_of_findArity {moduleName functionName : Name} {group : ArityGroup}
    (hfind : findArity moduleName functionName = some group) : group.count ≤ 4 :=
  of_decide_eq_true
    (List.all_eq_true.mp arityGroups_count group (List.mem_of_find?_eq_some hfind))

end Llvm

end Cnegative
