import Mathlib.Data.List.Basic

namespace Cnegative

/-! The syntax tree of `ast.h`, as the parser builds it and semantic analysis reads it. -/

abbrev Name := String

/-- `cn_type_ref`.  Array sizes stand as the `array_size` that
`cn_validate_type_ref` stored, not as the constant expression it came from. -/
inductive TypeRef where
  | int
  | u8
  | bool
  | str
  | void
  | null
  | result (inner : TypeRef)
  | ptr (inner : TypeRef)
  | slice (inner : TypeRef)
  | array (inner : TypeRef) (size : Nat)
  | named (moduleName name : Name)
  | unknown
  deriving DecidableEq, Repr, Inhabited

inductive UnaryOp where
  | negate
  | not
  deriving DecidableEq, Repr

inductive BinaryOp where
  | add
  | sub
  | mul
  | div
  | mod
  | equal
  | notEqual
  | less
  | lessEqual
  | greater
  | greaterEqual
  | and
  | or
  deriving DecidableEq, Repr

/-- `cn_expr`.  `repeatCount` is the `repeat_count` that `cn_check_array_literal`
stored when the literal has a repeat expression. -/
inductive Expr where
  | int (value : BitVec 64)
  | bool (value : Bool)
  | string (value : List UInt8)
  | null
  | name (name : Name)
  | unary (op : UnaryOp) (operand : Expr)
  | binary (op : BinaryOp) (left right : Expr)
  | ifExpr (condition thenExpr elseExpr : Expr)
  | call (callee : Expr) (arguments : List Expr)
  | arrayLiteral (items : List Expr) (repeatCount : Option Nat)
  | index (base index : Expr)
  | sliceView (base : Expr) (start stop : Option Expr)
  | field (base : Expr) (fieldName : Name)
  | structLiteral (moduleName typeName : Name) (fields : List (Name × Expr))
  | ok (value : Expr)
  | err
  | alloc (type : TypeRef)
  | zalloc (type : TypeRef)
  | addr (target : Expr)
  | deref (target : Expr)
  deriving Repr, Inhabited

/-- The statement under a `defer`: `cn_parse_defer_statement` builds these two
kinds and no other. -/
inductive Deferred where
  | expr (value : Expr)
  | free (value : Expr)
  deriving Repr, Inhabited

inductive Stmt where
  | letStmt (name : Name) (isMutable : Bool) (type : TypeRef) (initializer : Expr)
  | assign (target value : Expr)
  | returnStmt (value : Option Expr)
  | expr (value : Expr)
  | defer (statement : Deferred)
  | tryStmt (name : Name) (initializer : Expr)
  | zone (body : List Stmt)
  | ifStmt (condition : Expr) (thenBlock : List Stmt) (elseBlock : Option (List Stmt))
  | whileStmt (condition : Expr) (body : List Stmt)
  | loop (body : List Stmt)
  | forStmt (name : Name) (type : TypeRef) (start stop : Expr) (body : List Stmt)
  | free (value : Expr)
  deriving Repr, Inhabited

abbrev Block := List Stmt

/-! Declarations and the loaded project. -/

structure ImportDecl where
  moduleName : Name
  aliasName : Name
  deriving DecidableEq, Repr

structure ConstDecl where
  isPublic : Bool
  name : Name
  type : TypeRef
  initializer : Expr
  deriving Repr

structure StructField where
  name : Name
  type : TypeRef
  deriving DecidableEq, Repr

structure StructDecl where
  isPublic : Bool
  name : Name
  fields : List StructField
  deriving DecidableEq, Repr

structure Param where
  name : Name
  type : TypeRef
  deriving DecidableEq, Repr

structure FunctionDecl where
  isPublic : Bool
  isBuiltin : Bool
  name : Name
  returnType : TypeRef
  parameters : List Param
  body : Option Block
  deriving Repr

structure Program where
  imports : List ImportDecl
  consts : List ConstDecl
  structs : List StructDecl
  functions : List FunctionDecl
  deriving Repr

/-- Position of a module in `project->modules`; stands for the `cn_module` pointer. -/
abbrev ModuleId := Nat

/-- `imports[i]` is the module the `i`-th import declaration resolved to, or
`none` for the `NULL` the loader leaves after reporting E3017. -/
structure Module where
  isBuiltinStdlib : Bool
  name : Name
  program : Program
  imports : List (Option ModuleId)
  deriving Repr

structure Project where
  modules : List Module
  deriving Repr

/-- `fn:int main()` with the given body. -/
def mainFunction (body : Block) : FunctionDecl :=
  ⟨false, false, "main", .int, [], some body⟩

def mainProject (body : Block) : Project :=
  ⟨[⟨false, "main", ⟨[], [], [], [mainFunction body]⟩, []⟩]⟩

def Project.findModuleByName (project : Project) (name : Name) : Option ModuleId :=
  project.modules.findIdx? (fun module => module.name == name)

/-- What `cn_project_load` guarantees about the import table of module `own`
when it reports no error: every import resolved, to another module of the
project (an import of a module still loading is E3018), and one module name
resolves to one module. -/
structure Module.ImportsResolved (project : Project) (own : ModuleId) (module : Module) :
    Prop where
  length_eq : module.imports.length = module.program.imports.length
  resolved : ∀ target ∈ module.imports,
    ∃ id, target = some id ∧ id < project.modules.length ∧ id ≠ own
  deterministic : ∀ (i j : Nat) (first second : ImportDecl),
    module.program.imports[i]? = some first →
    module.program.imports[j]? = some second →
    first.moduleName = second.moduleName →
    module.imports[i]? = module.imports[j]?

def Project.ImportsResolved (project : Project) : Prop :=
  ∀ (self : ModuleId) (module : Module),
    project.modules[self]? = some module → module.ImportsResolved project self

end Cnegative
