import Cnegative.Backend.Sections
import Cnegative.Backend.Writes

namespace Cnegative

open Library (Line Code)

/-! Which builtin modules a program uses, as `llvm_text.c` and `toolchain.c` find out. -/

namespace Llvm

section

variable (moduleName : Name)

mutual

def exprUsesBuiltinModule : IrExpr → Bool
  | .null _ => false
  | .unary _ _ operand => exprUsesBuiltinModule operand
  | .binary _ _ left right => exprUsesBuiltinModule left || exprUsesBuiltinModule right
  | .ifExpr _ condition thenExpr elseExpr =>
      exprUsesBuiltinModule condition || exprUsesBuiltinModule thenExpr ||
        exprUsesBuiltinModule elseExpr
  | .call _ target callee _ arguments =>
      if target == .builtin && callee == moduleName then true
      else anyUsesBuiltinModule arguments
  | .arrayLiteral _ items => anyUsesBuiltinModule items
  | .sliceFromArray _ base => exprUsesBuiltinModule base
  | .index _ base position => exprUsesBuiltinModule base || exprUsesBuiltinModule position
  | .sliceView _ base start stop =>
      exprUsesBuiltinModule base || optionalUsesBuiltinModule start ||
        optionalUsesBuiltinModule stop
  | .field _ base _ => exprUsesBuiltinModule base
  | .structLiteral _ _ _ fields => anyFieldUsesBuiltinModule fields
  | .ok _ value => exprUsesBuiltinModule value
  | .addr _ target => exprUsesBuiltinModule target
  | .deref _ target => exprUsesBuiltinModule target
  | .zalloc _ _ _ | .int _ _ | .bool _ _ | .string _ _ | .local _ _ | .err _ | .alloc _ _ => false

def anyUsesBuiltinModule : List IrExpr → Bool
  | [] => false
  | expression :: rest =>
      if exprUsesBuiltinModule expression then true else anyUsesBuiltinModule rest

def anyFieldUsesBuiltinModule : List (Name × IrExpr) → Bool
  | [] => false
  | (_, value) :: rest =>
      if exprUsesBuiltinModule value then true else anyFieldUsesBuiltinModule rest

/-- An expression that may be `NULL`. -/
def optionalUsesBuiltinModule : Option IrExpr → Bool
  | none => false
  | some expression => exprUsesBuiltinModule expression

end

mutual

def stmtUsesBuiltinModule : IrStmt → Bool
  | .letStmt _ _ _ initializer => exprUsesBuiltinModule moduleName initializer
  | .assign target value =>
      exprUsesBuiltinModule moduleName target || exprUsesBuiltinModule moduleName value
  | .returnStmt value => optionalUsesBuiltinModule moduleName value
  | .expr value => exprUsesBuiltinModule moduleName value
  | .zone _ body => blockUsesBuiltinModule body
  | .ifStmt condition thenBlock elseBlock =>
      exprUsesBuiltinModule moduleName condition || blockUsesBuiltinModule thenBlock ||
        elseUsesBuiltinModule elseBlock
  | .whileStmt condition body =>
      exprUsesBuiltinModule moduleName condition || blockUsesBuiltinModule body
  | .loop body => blockUsesBuiltinModule body
  | .forStmt _ _ start stop body =>
      exprUsesBuiltinModule moduleName start || exprUsesBuiltinModule moduleName stop ||
        blockUsesBuiltinModule body
  | .free value => exprUsesBuiltinModule moduleName value

def blockUsesBuiltinModule : List IrStmt → Bool
  | [] => false
  | statement :: rest =>
      if stmtUsesBuiltinModule statement then true else blockUsesBuiltinModule rest

def elseUsesBuiltinModule : Option (List IrStmt) → Bool
  | none => false
  | some block => blockUsesBuiltinModule block

end

end

def programUsesBuiltinModule (program : IrProgram) (moduleName : Name) : Bool :=
  program.modules.any fun module =>
    (module.consts.any fun const => exprUsesBuiltinModule moduleName const.initializer) ||
      module.functions.any fun function => blockUsesBuiltinModule moduleName function.body

/-- The prelude that `cn_backend_emit_llvm_ir` prints. -/
def programPrelude (host : Host) (program : IrProgram) : List Section :=
  emitRuntimePrelude host (programUsesBuiltinModule program "std.x11")
    (programUsesBuiltinModule program "std.ipc")

end Llvm

namespace Backend

section

variable (moduleName : Name)

mutual

def exprUsesBuiltinModule : IrExpr → Bool
  | .unary _ _ operand => exprUsesBuiltinModule operand
  | .binary _ _ left right => exprUsesBuiltinModule left || exprUsesBuiltinModule right
  | .ifExpr _ condition thenExpr elseExpr =>
      exprUsesBuiltinModule condition || exprUsesBuiltinModule thenExpr ||
        exprUsesBuiltinModule elseExpr
  | .call _ target callee _ arguments =>
      (target == .builtin && callee == moduleName) || exprListUsesBuiltinModule arguments
  | .arrayLiteral _ items => exprListUsesBuiltinModule items
  | .sliceFromArray _ base => exprUsesBuiltinModule base
  | .index _ base position => exprUsesBuiltinModule base || exprUsesBuiltinModule position
  | .sliceView _ base start stop =>
      exprUsesBuiltinModule base || optionalUsesBuiltinModule start ||
        optionalUsesBuiltinModule stop
  | .field _ base _ => exprUsesBuiltinModule base
  | .structLiteral _ _ _ fields => fieldsUseBuiltinModule fields
  | .ok _ value => exprUsesBuiltinModule value
  | .err _ => false
  | .addr _ target => exprUsesBuiltinModule target
  | .deref _ target => exprUsesBuiltinModule target
  | .zalloc _ _ _ | .int _ _ | .bool _ _ | .string _ _ | .null _ | .local _ _ | .alloc _ _ => false

def exprListUsesBuiltinModule : List IrExpr → Bool
  | [] => false
  | expression :: rest =>
      if exprUsesBuiltinModule expression then true else exprListUsesBuiltinModule rest

def fieldsUseBuiltinModule : List (Name × IrExpr) → Bool
  | [] => false
  | (_, value) :: rest =>
      if exprUsesBuiltinModule value then true else fieldsUseBuiltinModule rest

/-- An expression that may be `NULL`. -/
def optionalUsesBuiltinModule : Option IrExpr → Bool
  | none => false
  | some expression => exprUsesBuiltinModule expression

end

mutual

def stmtUsesBuiltinModule : IrStmt → Bool
  | .letStmt _ _ _ initializer => exprUsesBuiltinModule moduleName initializer
  | .assign target value =>
      exprUsesBuiltinModule moduleName target || exprUsesBuiltinModule moduleName value
  | .returnStmt value => optionalUsesBuiltinModule moduleName value
  | .expr value => exprUsesBuiltinModule moduleName value
  | .zone _ body => blockUsesBuiltinModule body
  | .ifStmt condition thenBlock elseBlock =>
      exprUsesBuiltinModule moduleName condition || blockUsesBuiltinModule thenBlock ||
        elseUsesBuiltinModule elseBlock
  | .whileStmt condition body =>
      exprUsesBuiltinModule moduleName condition || blockUsesBuiltinModule body
  | .loop body => blockUsesBuiltinModule body
  | .forStmt _ _ start stop body =>
      exprUsesBuiltinModule moduleName start || exprUsesBuiltinModule moduleName stop ||
        blockUsesBuiltinModule body
  | .free value => exprUsesBuiltinModule moduleName value

def blockUsesBuiltinModule : List IrStmt → Bool
  | [] => false
  | statement :: rest =>
      if stmtUsesBuiltinModule statement then true else blockUsesBuiltinModule rest

def elseUsesBuiltinModule : Option (List IrStmt) → Bool
  | none => false
  | some block => blockUsesBuiltinModule block

end

end

def programUsesBuiltinModule (program : IrProgram) (moduleName : Name) : Bool :=
  program.modules.any fun module =>
    (module.consts.any fun const => exprUsesBuiltinModule moduleName const.initializer) ||
      module.functions.any fun function => blockUsesBuiltinModule moduleName function.body

end Backend

/-! What both scans look for. -/

def IrExpr.callsBuiltinModule (moduleName : Name) : IrExpr → Bool
  | .call _ .builtin callee _ _ => callee == moduleName
  | _ => false

def IrProgram.UsesBuiltinModule (program : IrProgram) (moduleName : Name) : Prop :=
  ∃ module ∈ program.modules,
    (∃ const ∈ module.consts, ∃ part : IrExpr, part.Within const.initializer ∧
      part.callsBuiltinModule moduleName = true) ∨
    ∃ function ∈ module.functions, ∃ part, IrBlock.Occurs part function.body ∧
      part.callsBuiltinModule moduleName = true

theorem callsBuiltinModule_call (moduleName : Name) (type : TypeRef) (target : CallTarget)
    (callee functionName : Name) (arguments : List IrExpr) :
    (IrExpr.call type target callee functionName arguments).callsBuiltinModule moduleName =
      (target == .builtin && callee == moduleName) := by
  cases target <;> rfl

namespace Llvm

theorem anyUsesBuiltinModule_eq (moduleName : Name) (expressions : List IrExpr) :
    anyUsesBuiltinModule moduleName expressions =
      expressions.any (exprUsesBuiltinModule moduleName) := by
  induction expressions with
  | nil => rfl
  | cons expression rest ih => rw [anyUsesBuiltinModule, ih, List.any_cons, Bool.if_true_left,
      Bool.decide_eq_true]

theorem anyFieldUsesBuiltinModule_eq (moduleName : Name) (fields : List (Name × IrExpr)) :
    anyFieldUsesBuiltinModule moduleName fields =
      (fields.map Prod.snd).any (exprUsesBuiltinModule moduleName) := by
  induction fields with
  | nil => rfl
  | cons field rest ih => rw [anyFieldUsesBuiltinModule, ih, List.map_cons, List.any_cons,
      Bool.if_true_left, Bool.decide_eq_true]

theorem optionalUsesBuiltinModule_eq (moduleName : Name) (expression : Option IrExpr) :
    optionalUsesBuiltinModule moduleName expression =
      expression.toList.any (exprUsesBuiltinModule moduleName) := by
  cases expression <;> simp [optionalUsesBuiltinModule]

theorem exprUsesBuiltinModule_eq (moduleName : Name) (expression : IrExpr) :
    exprUsesBuiltinModule moduleName expression =
      (expression.callsBuiltinModule moduleName ||
        expression.children.any (exprUsesBuiltinModule moduleName)) := by
  cases expression with
  | call =>
      rw [exprUsesBuiltinModule, callsBuiltinModule_call, IrExpr.children,
        anyUsesBuiltinModule_eq, Bool.if_true_left, Bool.decide_eq_true]
  | _ =>
      simp [exprUsesBuiltinModule, IrExpr.callsBuiltinModule, IrExpr.children,
        anyUsesBuiltinModule_eq, anyFieldUsesBuiltinModule_eq, optionalUsesBuiltinModule_eq,
        Bool.or_assoc]

theorem blockUsesBuiltinModule_eq (moduleName : Name) (block : IrBlock) :
    blockUsesBuiltinModule moduleName block = block.any fun statement =>
      statement.expressions.any (exprUsesBuiltinModule moduleName) ||
        statement.blocks.any (blockUsesBuiltinModule moduleName) := by
  induction block with
  | nil => rfl
  | cons statement rest ih =>
      rw [blockUsesBuiltinModule, ih, List.any_cons, Bool.if_true_left, Bool.decide_eq_true]
      congr 1
      cases statement with
      | ifStmt condition thenBlock elseBlock =>
          cases elseBlock <;> simp [stmtUsesBuiltinModule, elseUsesBuiltinModule,
            IrStmt.expressions, IrStmt.blocks, Bool.or_assoc]
      | _ =>
          simp [stmtUsesBuiltinModule, IrStmt.expressions, IrStmt.blocks,
            optionalUsesBuiltinModule_eq, Bool.or_assoc]

theorem programUsesBuiltinModule_iff (program : IrProgram) (moduleName : Name) :
    programUsesBuiltinModule program moduleName = true ↔ program.UsesBuiltinModule moduleName := by
  simp only [programUsesBuiltinModule, IrProgram.UsesBuiltinModule, List.any_eq_true,
    Bool.or_eq_true, IrExpr.scan_iff (exprUsesBuiltinModule_eq moduleName),
    IrBlock.scan_iff (exprUsesBuiltinModule_eq moduleName) (blockUsesBuiltinModule_eq moduleName)]

end Llvm

namespace Backend

theorem exprListUsesBuiltinModule_eq (moduleName : Name) (expressions : List IrExpr) :
    exprListUsesBuiltinModule moduleName expressions =
      expressions.any (exprUsesBuiltinModule moduleName) := by
  induction expressions with
  | nil => rfl
  | cons expression rest ih => rw [exprListUsesBuiltinModule, ih, List.any_cons,
      Bool.if_true_left, Bool.decide_eq_true]

theorem fieldsUseBuiltinModule_eq (moduleName : Name) (fields : List (Name × IrExpr)) :
    fieldsUseBuiltinModule moduleName fields =
      (fields.map Prod.snd).any (exprUsesBuiltinModule moduleName) := by
  induction fields with
  | nil => rfl
  | cons field rest ih => rw [fieldsUseBuiltinModule, ih, List.map_cons, List.any_cons,
      Bool.if_true_left, Bool.decide_eq_true]

theorem optionalUsesBuiltinModule_eq (moduleName : Name) (expression : Option IrExpr) :
    optionalUsesBuiltinModule moduleName expression =
      expression.toList.any (exprUsesBuiltinModule moduleName) := by
  cases expression <;> simp [optionalUsesBuiltinModule]

theorem exprUsesBuiltinModule_eq (moduleName : Name) (expression : IrExpr) :
    exprUsesBuiltinModule moduleName expression =
      (expression.callsBuiltinModule moduleName ||
        expression.children.any (exprUsesBuiltinModule moduleName)) := by
  cases expression with
  | call =>
      rw [exprUsesBuiltinModule, callsBuiltinModule_call, IrExpr.children,
        exprListUsesBuiltinModule_eq]
  | _ =>
      simp [exprUsesBuiltinModule, IrExpr.callsBuiltinModule, IrExpr.children,
        exprListUsesBuiltinModule_eq, fieldsUseBuiltinModule_eq, optionalUsesBuiltinModule_eq,
        Bool.or_assoc]

theorem blockUsesBuiltinModule_eq (moduleName : Name) (block : IrBlock) :
    blockUsesBuiltinModule moduleName block = block.any fun statement =>
      statement.expressions.any (exprUsesBuiltinModule moduleName) ||
        statement.blocks.any (blockUsesBuiltinModule moduleName) := by
  induction block with
  | nil => rfl
  | cons statement rest ih =>
      rw [blockUsesBuiltinModule, ih, List.any_cons, Bool.if_true_left, Bool.decide_eq_true]
      congr 1
      cases statement with
      | ifStmt condition thenBlock elseBlock =>
          cases elseBlock <;> simp [stmtUsesBuiltinModule, elseUsesBuiltinModule,
            IrStmt.expressions, IrStmt.blocks, Bool.or_assoc]
      | _ =>
          simp [stmtUsesBuiltinModule, IrStmt.expressions, IrStmt.blocks,
            optionalUsesBuiltinModule_eq, Bool.or_assoc]

theorem programUsesBuiltinModule_iff (program : IrProgram) (moduleName : Name) :
    programUsesBuiltinModule program moduleName = true ↔ program.UsesBuiltinModule moduleName := by
  simp only [programUsesBuiltinModule, IrProgram.UsesBuiltinModule, List.any_eq_true,
    Bool.or_eq_true, IrExpr.scan_iff (exprUsesBuiltinModule_eq moduleName),
    IrBlock.scan_iff (exprUsesBuiltinModule_eq moduleName) (blockUsesBuiltinModule_eq moduleName)]

end Backend

theorem programUsesBuiltinModule_eq (program : IrProgram) (moduleName : Name) :
    Llvm.programUsesBuiltinModule program moduleName =
      Backend.programUsesBuiltinModule program moduleName := by
  rw [Bool.eq_iff_iff, Llvm.programUsesBuiltinModule_iff, Backend.programUsesBuiltinModule_iff]

theorem usesBuiltinModule_of_occurs {program : IrProgram} {module : IrModule}
    {function : IrFunction} (hmodule : module ∈ program.modules)
    (hfunction : function ∈ module.functions) {type : TypeRef} {moduleName functionName : Name}
    {arguments : List IrExpr}
    (hoccurs : IrBlock.Occurs (.call type .builtin moduleName functionName arguments)
      function.body) : program.UsesBuiltinModule moduleName :=
  ⟨module, hmodule, .inr ⟨function, hfunction, _, hoccurs, beq_self_eq_true moduleName⟩⟩

/-! The link line of `toolchain.c`. -/

namespace Backend

open Llvm (Host Section)

inductive LinkInput where
  | programObject
  | runtimeObject
  | winsock
  | x11
  /-- What clang links on its own. -/
  | systemLibraries
  deriving DecidableEq, Repr

def linkObjectToBinary (host : Host) (program : IrProgram) (extraObject : Bool) :
    List LinkInput :=
  [.programObject] ++
  (if programUsesBuiltinModule program "std.ipc" && extraObject then [.runtimeObject] else []) ++
  (match host with
    | .windows => [.winsock]
    | _ => if programUsesBuiltinModule program "std.x11" then [.x11] else []) ++
  [.systemLibraries]

/-- The link of `cn_backend_build_binary`, which compiles the helper of `native_runtime.c`
for `std.ipc` only. -/
def buildBinary (host : Host) (program : IrProgram) : List LinkInput :=
  linkObjectToBinary host program (programUsesBuiltinModule program "std.ipc")

def socketFunctions : List String :=
  ["@socket", "@setsockopt", "@connect", "@bind", "@listen", "@accept", "@send", "@sendto",
  "@recv", "@recvfrom", "@htons", "@ntohs", "@inet_addr"]

/-- What `native_runtime.c` defines for the prelude. -/
def runtimeFunctions : List String :=
  ["@cn_ipc_native_spawn", "@cn_ipc_native_stdin_write", "@cn_ipc_native_stdin_write_line",
  "@cn_ipc_native_stdin_close", "@cn_ipc_native_stdout_read",
  "@cn_ipc_native_stdout_read_line", "@cn_ipc_native_stderr_read",
  "@cn_ipc_native_stderr_read_line", "@cn_ipc_native_wait", "@cn_ipc_native_kill",
  "@cn_ipc_native_release"]

/-! What the prelude declares from each library. -/

def winsockFunctions : List String :=
  socketFunctions ++ ["@WSAStartup", "@closesocket"]

def x11Functions : List String :=
  ["@XOpenDisplay", "@XDefaultScreen", "@XRootWindow", "@XBlackPixel", "@XWhitePixel",
  "@XCreateSimpleWindow", "@XStoreName", "@XInternAtom", "@XSetWMProtocols", "@XSelectInput",
  "@XMapWindow", "@XPending", "@XNextEvent", "@XFlush", "@XDestroyWindow", "@XCloseDisplay"]

def systemFunctions (host : Host) : List String :=
  ["@printf", "@puts", "@getchar", "@putchar", "@fflush", "@strlen", "@strcmp", "@strstr",
  "@memcmp", "@memcpy", "@memmove", "@malloc", "@realloc", "@snprintf", "@free", "@atexit",
  "@fopen", "@fclose", "@fgetc", "@fwrite", "@getenv", "@remove", "@rename", "@exit"] ++
  match host with
  | .windows =>
      ["@_getch", "@_kbhit", "@_getcwd", "@GetStdHandle", "@GetConsoleMode",
      "@SetConsoleMode", "@GetConsoleScreenBufferInfo", "@Sleep", "@GetSystemTimeAsFileTime",
      "@_mkdir", "@_rmdir"]
  | _ =>
      socketFunctions ++
      ["@isatty", "@signal", "@read", "@poll", "@ioctl", "@tcgetattr", "@tcsetattr",
      "@cfmakeraw", "@wcwidth", "@timespec_get", "@getcwd", "@usleep", "@close", "@mkdir",
      "@rmdir"]

/-- An input defines the function; `exports` is what the libraries define. -/
def LinkInput.Defines (exports : Host → LinkInput → String → Prop) (host : Host) :
    LinkInput → String → Prop
  | .programObject, _ => False
  | .runtimeObject, symbol => symbol ∈ runtimeFunctions
  | library, symbol => exports host library symbol

def Linked (exports : Host → LinkInput → String → Prop) (host : Host) (inputs : List LinkInput)
    (symbol : String) : Prop :=
  ∃ input ∈ inputs, input.Defines exports host symbol

theorem Linked.mono {exports : Host → LinkInput → String → Prop} {host : Host}
    {inputs inputs' : List LinkInput} {symbol : String} (hsubset : inputs ⊆ inputs')
    (hlinked : Linked exports host inputs symbol) : Linked exports host inputs' symbol :=
  let ⟨input, hinput, hdefines⟩ := hlinked
  ⟨input, hsubset hinput, hdefines⟩

def baseInputs : Host → List LinkInput
  | .windows => [.winsock, .systemLibraries]
  | _ => [.systemLibraries]

theorem baseInputs_subset (host : Host) (program : IrProgram) :
    baseInputs host ⊆ buildBinary host program := by
  cases host <;> simp [baseInputs, buildBinary, linkObjectToBinary]

theorem declares_functions (host : Host) :
    ∀ part ∈ Llvm.emitRuntimePrelude host false false, ∀ symbol ∈ part.declares,
      symbol ∈ (if host = .windows then winsockFunctions else []) ++ systemFunctions host := by
  cases host <;>
    simp only [Llvm.emitRuntimePrelude, Bool.false_eq_true, if_false, List.cons_append,
      List.nil_append, List.forall_mem_cons, Llvm.emitRuntimeDecls, Llvm.emitRuntimeCore,
      Llvm.emitRuntimeBytes, Llvm.emitRuntimeLines, Llvm.emitRuntimeStrings, Llvm.emitRuntimeText,
      Llvm.emitRuntimeParse, Llvm.emitRuntimeMath, Llvm.emitRuntimeTime, Llvm.emitRuntimeEnv,
      Llvm.emitRuntimeNet, Llvm.emitRuntimePath, Llvm.emitRuntimeFs, Llvm.emitRuntimeProcess,
      Llvm.emitRuntimeIo, Llvm.emitRuntimeTerm] <;>
    repeat' first
      | exact List.forall_mem_nil _
      | exact List.mem_cons_self
      | apply And.intro
      | apply List.mem_cons_of_mem

section

variable {exports : Host → LinkInput → String → Prop} {host : Host}
  (hwinsock : ∀ symbol ∈ winsockFunctions, exports .windows .winsock symbol)
  (hsystem : ∀ symbol ∈ systemFunctions host, exports host .systemLibraries symbol)

include hwinsock hsystem

theorem declares_linked {part : Section} (hpart : part ∈ Llvm.emitRuntimePrelude host false false)
    {symbol : String} (hsymbol : symbol ∈ part.declares) :
    Linked exports host (baseInputs host) symbol := by
  rcases List.mem_append.mp (declares_functions host part hpart symbol hsymbol) with hmem | hmem
  · split at hmem
    · next hhost =>
        subst hhost
        exact ⟨.winsock, by simp [baseInputs], hwinsock symbol hmem⟩
    · cases hmem
  · exact ⟨.systemLibraries, by cases host <;> simp [baseInputs], hsystem symbol hmem⟩

theorem declares_linked_buildBinary {program : IrProgram}
    (hx11 : ∀ symbol ∈ x11Functions, exports .linux .x11 symbol)
    (hlinux : Llvm.programUsesBuiltinModule program "std.x11" = true → host = .linux)
    {part : Section} (hpart : part ∈ Llvm.programPrelude host program) {symbol : String}
    (hsymbol : symbol ∈ part.declares) :
    Linked exports host (buildBinary host program) symbol := by
  rcases Llvm.mem_emitRuntimePrelude hpart with hbase | ⟨huse, rfl⟩ | ⟨huse, rfl⟩
  · exact (declares_linked hwinsock hsystem hbase hsymbol).mono (baseInputs_subset host program)
  · rw [programUsesBuiltinModule_eq] at huse
    exact ⟨.runtimeObject, by simp [buildBinary, linkObjectToBinary, huse], hsymbol⟩
  · obtain rfl := hlinux huse
    rw [programUsesBuiltinModule_eq] at huse
    exact ⟨.x11, by simp [buildBinary, linkObjectToBinary, huse], hx11 symbol hsymbol⟩

end

end Backend

namespace Llvm

theorem emitterSymbols_symbols (host : Host) : ∀ symbol ∈ emitterSymbols, symbol ∈ symbolsOf
    [emitRuntimeCore, emitRuntimeIo, emitRuntimeDecls host] := by
  simp only [emitterSymbols, List.forall_mem_cons]
  repeat' first
    | exact List.forall_mem_nil _
    | exact List.mem_cons_self
    | apply And.intro
    | apply List.mem_cons_of_mem

/-- Whatever runtime function the code of a function calls stands in the prelude. -/
theorem runtimeSymbol_provided {host : Host} {program : IrProgram}
    (hx11 : programUsesBuiltinModule program "std.x11" = true → host = .linux)
    {module : IrModule} (hmodule : module ∈ program.modules) {function : IrFunction}
    (hfunction : function ∈ module.functions) {context : EmitContext} {code : Code Inst}
    (hemit : emitFunction context function = some code) {inst : Inst}
    (hinst : Line.inst inst ∈ code) {symbol : String}
    (hsymbol : inst.runtimeSymbol? = some symbol) :
    Provided (programPrelude host program) symbol := by
  cases origin_of_emitFunction hemit hinst with
  | plain hnone hglobal => exact absurd (hnone.symm.trans hsymbol) (by simp)
  | literal hoccurs hfind hnone hglobal => exact absurd (hnone.symm.trans hsymbol) (by simp)
  | emitter hmem hsome hglobal =>
      obtain rfl := Option.some.inj (hsome.symm.trans hsymbol)
      refine (provided_of_mem ?_ (emitterSymbols_symbols host _ hmem)).mono
        (base_subset host _ _)
      simp [emitRuntimePrelude]
  | @builtin type moduleName functionName arguments entry hoccurs hfind hsome hglobal =>
      obtain rfl := Option.some.inj (hsome.symm.trans hsymbol)
      have hname : entry.moduleName = moduleName := by
        have hsame := List.find?_some hfind
        simp only [Bool.and_eq_true, beq_iff_eq] at hsame
        exact hsame.1
      have huse := (programUsesBuiltinModule_iff program moduleName).mpr
        (usesBuiltinModule_of_occurs hmodule hfunction hoccurs)
      by_cases hipc : entry ∈ ipcCalls
      · obtain ⟨hmodule, hdefined⟩ := ipcCalls_symbols entry hipc
        rw [← hname, hmodule] at huse
        exact ⟨emitRuntimeIpc, by simp [programPrelude, emitRuntimePrelude, huse],
          .inl hdefined⟩
      · by_cases hx : entry ∈ x11Calls
        · obtain ⟨hmodule, hdefined⟩ := x11Calls_symbols entry hx
          rw [← hname, hmodule] at huse
          obtain rfl := hx11 huse
          exact ⟨emitRuntimeX11 .linux, by simp [programPrelude, emitRuntimePrelude, huse],
            .inl hdefined⟩
        · exact (namedCalls_provided host (List.mem_of_find?_eq_some hfind) hipc hx).mono
            (base_subset host _ _)

end Llvm

/-- Both scans find every builtin call, so that whatever is emitted stands in the prelude and
in the link, on a host whose loader knows the modules that the program uses, given that the
libraries define what is declared from them. -/
theorem runtime_inclusion_agrees_with_use
    {exports : Llvm.Host → Backend.LinkInput → String → Prop}
    (hwinsock : ∀ symbol ∈ Backend.winsockFunctions, exports .windows .winsock symbol)
    (hxlib : ∀ symbol ∈ Backend.x11Functions, exports .linux .x11 symbol)
    (hsystem : ∀ host, ∀ symbol ∈ Backend.systemFunctions host,
      exports host .systemLibraries symbol) (program : IrProgram) :
    (∀ moduleName, Llvm.programUsesBuiltinModule program moduleName =
      Backend.programUsesBuiltinModule program moduleName) ∧
    (∀ module ∈ program.modules, ∀ function ∈ module.functions,
      ∀ type moduleName functionName arguments,
        IrBlock.Occurs (.call type .builtin moduleName functionName arguments) function.body →
          Llvm.programUsesBuiltinModule program moduleName = true ∧
          Backend.programUsesBuiltinModule program moduleName = true) ∧
    ∀ host, (program.UsesBuiltinModule "std.x11" →
        Llvm.isBuiltinStdlibModuleName host "std.x11" = true) →
      (∀ module ∈ program.modules, ∀ function ∈ module.functions, ∀ context code,
        Llvm.emitFunction context function = some code →
          ∀ inst, Line.inst inst ∈ code → ∀ symbol, inst.runtimeSymbol? = some symbol →
            Llvm.Provided (Llvm.programPrelude host program) symbol) ∧
      ∀ part ∈ Llvm.programPrelude host program,
        (∀ symbol ∈ part.calls, Llvm.Provided (Llvm.programPrelude host program) symbol) ∧
        ∀ symbol ∈ part.declares,
          Backend.Linked exports host (Backend.buildBinary host program) symbol := by
  refine ⟨programUsesBuiltinModule_eq program, ?_, fun host hknown => ?_⟩
  · intro module hmodule function hfunction type moduleName functionName arguments hoccurs
    have huse := usesBuiltinModule_of_occurs hmodule hfunction hoccurs
    exact ⟨(Llvm.programUsesBuiltinModule_iff program moduleName).mpr huse,
      (Backend.programUsesBuiltinModule_iff program moduleName).mpr huse⟩
  · have hx11 : Llvm.programUsesBuiltinModule program "std.x11" = true → host = .linux :=
      fun huse => Llvm.linux_of_x11
        (hknown ((Llvm.programUsesBuiltinModule_iff program "std.x11").mp huse))
    refine ⟨?_, fun part hpart => ⟨?_, ?_⟩⟩
    · intro module hmodule function hfunction context code hemit inst hinst symbol hsymbol
      exact Llvm.runtimeSymbol_provided hx11 hmodule hfunction hemit hinst hsymbol
    · exact Llvm.sectionCalls_provided hpart
    · exact fun symbol hsymbol =>
        Backend.declares_linked_buildBinary hwinsock (hsystem host) hxlib hx11 hpart hsymbol

/-- A call of `std.ipc` inside a zone. -/
def zoneReleaseFunction : IrFunction where
  isPublic := true
  moduleName := "main"
  name := "main"
  returnType := .void
  parameters := []
  body := [.zone "z" [.expr (.call (.result .bool) .builtin "std.ipc" "release"
    [.null (.ptr .u8)])]]

def zoneReleaseProgram : IrProgram where
  modules := [{ name := "main", consts := [], structs := [], functions := [zoneReleaseFunction] }]

def zoneReleaseCode : Code Llvm.Inst :=
  [.inst (.alloca 0 (.ptr .u8)),
    .inst (.call (some 1) (.ptr .u8) (.runtime "@cn_zone_enter") []),
    .inst (.store ⟨.ptr .u8, .reg 1⟩ (.reg 0)),
    .inst (.call (some 2) (.result .bool) (.runtime "@cn_ipc_release") [⟨.ptr .u8, .null⟩]),
    .inst .retVoid]

def declaredExports (host : Llvm.Host) : Backend.LinkInput → String → Prop
  | .winsock, symbol => symbol ∈ Backend.winsockFunctions
  | .x11, symbol => symbol ∈ Backend.x11Functions
  | .systemLibraries, symbol => symbol ∈ Backend.systemFunctions host
  | _, _ => False

theorem runtime_inclusion_zoneRelease :
    Llvm.emitFunction ⟨[], []⟩ zoneReleaseFunction = some zoneReleaseCode ∧
      Llvm.Provided (Llvm.programPrelude .linux zoneReleaseProgram) "@cn_ipc_release" ∧
      Backend.Linked declaredExports .linux (Backend.buildBinary .linux zoneReleaseProgram)
        "@cn_ipc_native_release" := by
  obtain ⟨_, huse, hincluded⟩ := @runtime_inclusion_agrees_with_use declaredExports
    (fun _ hmem => hmem) (fun _ hmem => hmem) (fun _ _ hmem => hmem)
    zoneReleaseProgram
  obtain ⟨hcalls, hparts⟩ := hincluded .linux fun _ => by decide
  have hipc := (huse _ List.mem_cons_self _ List.mem_cons_self (.result .bool) "std.ipc" "release"
    [.null (.ptr .u8)] (.nested List.mem_cons_self List.mem_cons_self
      (.here List.mem_cons_self List.mem_cons_self .self))).1
  have hmem : Llvm.emitRuntimeIpc ∈ Llvm.programPrelude .linux zoneReleaseProgram := by
    simp [Llvm.programPrelude, Llvm.emitRuntimePrelude, hipc]
  have hemit : Llvm.emitFunction ⟨[], []⟩ zoneReleaseFunction = some zoneReleaseCode := by
    decide +kernel
  have hcall : Line.inst (.call (some 2) (.result .bool) (.runtime "@cn_ipc_release")
      [⟨.ptr .u8, .null⟩]) ∈ zoneReleaseCode := by decide
  exact ⟨hemit, hcalls _ List.mem_cons_self _ List.mem_cons_self _ _ hemit _ hcall _ rfl,
    (hparts _ hmem).2 _ (by decide)⟩

end Cnegative
