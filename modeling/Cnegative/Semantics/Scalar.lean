import Cnegative.Backend.Builtins
import Cnegative.Backend.Llvm
import Cnegative.Semantics.Value

namespace Cnegative

open Llvm (Symbol findNamedCall)

/-- The values of the scalar types, and the result of a call that has none. -/
inductive Value.HasType : Value → TypeRef → Prop where
  | int (value : BitVec 64) : HasType (.int value) .int
  | u8 (value : BitVec 8) : HasType (.u8 value) .u8
  | bool (value : Bool) : HasType (.bool value) .bool
  | void : HasType .void .void

namespace Scalar

/-! What a function of scalars is meant to do: a big-step semantics with the locals in one
list, the newest first, and with the calls left to an oracle. -/

/-- What a call returns and does to the world; the result is one of the type it is called at. -/
structure Oracle (ω : Type) where
  call : TypeRef → Symbol → List Value → ω → Option (Value × ω)
  hasType : ∀ {type symbol arguments world value world'},
    call type symbol arguments world = some (value, world') → value.HasType type

/-- The world outside the function, and the calls made so far, the newest first. -/
structure Outside (ω : Type) where
  world : ω
  calls : List (Symbol × List Value)

structure Local where
  value : Value
  isMutable : Bool

abbrev Store := List (Name × Local)

/-- The innermost local of the name, if it is mutable, gets the value. -/
def Store.assign (store : Store) (name : Name) (value : Value) : Option Store :=
  match store with
  | [] => none
  | (key, found) :: rest =>
      if name == key then
        if found.isMutable then some ((key, ⟨value, true⟩) :: rest) else none
      else (assign rest name value).map fun changed => (key, found) :: changed

variable {ω : Type}

def Oracle.answer (oracle : Oracle ω) (type : TypeRef) (symbol : Symbol) (arguments : List Value)
    (outside : Outside ω) : Option (Value × Outside ω) :=
  (oracle.call type symbol arguments outside.world).map fun answer =>
    (answer.1, ⟨answer.2, (symbol, arguments) :: outside.calls⟩)

def applyUnary : UnaryOp → Value → Option Value
  | .negate, .int value => some (.int (-value))
  | .not, .bool value => some (.bool (!value))
  | _, _ => none

/-- There is no quotient by zero, and none that does not fit. -/
def quotient (operation : BitVec 64 → BitVec 64 → BitVec 64) (left right : BitVec 64) :
    Option Value :=
  if right = 0 ∨ (left = BitVec.intMin 64 ∧ right = -1) then none
  else some (.int (operation left right))

def applyInts : BinaryOp → BitVec 64 → BitVec 64 → Option Value
  | .add, left, right => some (.int (left + right))
  | .sub, left, right => some (.int (left - right))
  | .mul, left, right => some (.int (left * right))
  | .div, left, right => quotient BitVec.sdiv left right
  | .mod, left, right => quotient BitVec.srem left right
  | .equal, left, right => some (.bool (left = right))
  | .notEqual, left, right => some (.bool (left ≠ right))
  | .less, left, right => some (.bool (left.toInt < right.toInt))
  | .lessEqual, left, right => some (.bool (left.toInt ≤ right.toInt))
  | .greater, left, right => some (.bool (left.toInt > right.toInt))
  | .greaterEqual, left, right => some (.bool (left.toInt ≥ right.toInt))
  | .and, _, _ | .or, _, _ => none

def applyBytes : BinaryOp → BitVec 8 → BitVec 8 → Option Value
  | .equal, left, right => some (.bool (left = right))
  | .notEqual, left, right => some (.bool (left ≠ right))
  | .less, left, right => some (.bool (left.toNat < right.toNat))
  | .lessEqual, left, right => some (.bool (left.toNat ≤ right.toNat))
  | .greater, left, right => some (.bool (left.toNat > right.toNat))
  | .greaterEqual, left, right => some (.bool (left.toNat ≥ right.toNat))
  | _, _, _ => none

def applyBools : BinaryOp → Bool → Bool → Option Value
  | .equal, left, right => some (.bool (left = right))
  | .notEqual, left, right => some (.bool (left ≠ right))
  | _, _, _ => none

/-- The operators that need both operands. -/
def applyBinary (op : BinaryOp) : Value → Value → Option Value
  | .int left, .int right => applyInts op left right
  | .u8 left, .u8 right => applyBytes op left right
  | .bool left, .bool right => applyBools op left right
  | _, _ => none

/-- `print` and `println` hand a `u8` on as an `int`. -/
def printed (isPrint : Bool) : Value → Option (Symbol × List Value)
  | .int value =>
      some (.runtime (if isPrint then "@cn_write_int" else "@cn_print_int"), [.int value])
  | .u8 value =>
      some (.runtime (if isPrint then "@cn_write_int" else "@cn_print_int"),
        [.int (value.setWidth 64)])
  | .bool value =>
      some (.runtime (if isPrint then "@cn_write_bool" else "@cn_print_bool"), [.bool value])
  | _ => none

def called (type : TypeRef) (target : CallTarget) (moduleName functionName : Name)
    (arguments : List Value) : Option (Symbol × List Value) :=
  match target with
  | .builtin =>
      match findNamedCall moduleName functionName with
      | some entry => some (.runtime entry.symbol, arguments.take entry.argumentCount)
      | none =>
          if moduleName = "" ∧ type = .void then
            if functionName = "print" then arguments.head?.bind (printed true)
            else if functionName = "println" then arguments.head?.bind (printed false)
            else none
          else none
  | _ => some (.function moduleName functionName, arguments)

section

variable (oracle : Oracle ω) (store : Store)

mutual

/-- Other forms of expression have no meaning here. -/
def eval : IrExpr → Outside ω → Option (Value × Outside ω)
  | .int type value, outside => some (Value.ofInt type value, outside)
  | .bool _ value, outside => some (.bool value, outside)
  | .local _ name, outside => (store.lookup name).map fun found => (found.value, outside)
  | .unary _ op operand, outside =>
      (eval operand outside).bind fun first =>
        (applyUnary op first.1).map fun value => (value, first.2)
  | .binary _ op left right, outside =>
      (eval left outside).bind fun first =>
        match op, first.1 with
        | .and, .bool true | .or, .bool false => eval right first.2
        | .and, .bool false | .or, .bool true => some first
        | op, _ =>
            (eval right first.2).bind fun second =>
              (applyBinary op first.1 second.1).map fun value => (value, second.2)
  | .ifExpr _ condition thenExpr elseExpr, outside =>
      (eval condition outside).bind fun test =>
        match test.1 with
        | .bool true => eval thenExpr test.2
        | .bool false => eval elseExpr test.2
        | _ => none
  | .call type target moduleName functionName arguments, outside =>
      (evalAll arguments outside).bind fun evaluated =>
        (called type target moduleName functionName evaluated.1).bind fun call =>
          oracle.answer type call.1 call.2 evaluated.2
  | _, _ => none

def evalAll : List IrExpr → Outside ω → Option (List Value × Outside ω)
  | [], outside => some ([], outside)
  | first :: rest, outside =>
      (eval first outside).bind fun head =>
        (evalAll rest head.2).map fun tail => (head.1 :: tail.1, tail.2)

end

end

/-- `a, a + 1, ..., b - 1`. -/
def range (first last : BitVec 64) : List (BitVec 64) :=
  (List.range (last.toInt - first.toInt).toNat).map fun round => first + BitVec.ofNat 64 round

theorem range_of_le {first last : BitVec 64} (hle : last.toInt ≤ first.toInt) :
    range first last = [] := by
  have hzero : (last.toInt - first.toInt).toNat = 0 := by omega
  rw [range, hzero]
  rfl

theorem toInt_succ_of_lt {first last : BitVec 64} (hlt : first.toInt < last.toInt) :
    (first + 1).toInt = first.toInt + 1 := by
  have hlast := BitVec.toInt_lt (x := last)
  have hfirst := BitVec.le_toInt first
  rw [BitVec.toInt_add, show (1 : BitVec 64).toInt = 1 from rfl]
  exact Int.bmod_eq_of_le (by omega) (by omega)

theorem range_of_lt {first last : BitVec 64} (hlt : first.toInt < last.toInt) :
    range first last = first :: range (first + 1) last := by
  have hsucc : (last.toInt - first.toInt).toNat = (last.toInt - (first + 1).toInt).toNat + 1 := by
    rw [toInt_succ_of_lt hlt]
    omega
  rw [range, range, hsucc, List.range_succ_eq_map, List.map_cons, List.map_map]
  congr 1
  · simp
  · refine List.map_congr_left fun round _ => ?_
    simp only [Function.comp_apply, Nat.succ_eq_add_one, BitVec.ofNat_add]
    rw [BitVec.add_comm (BitVec.ofNat 64 round), ← BitVec.add_assoc]
    rfl

/-- A round of a `for` loop, and what is left of its bounds. -/
theorem range_eq_cons {first last value : BitVec 64} {values : List (BitVec 64)}
    (hrange : value :: values = range first last) :
    first.toInt < last.toInt ∧ value = first ∧ values = range (first + 1) last := by
  by_cases hlt : first.toInt < last.toInt
  · rw [range_of_lt hlt, List.cons.injEq] at hrange
    exact ⟨hlt, hrange⟩
  · rw [range_of_le (by omega)] at hrange
    cases hrange

theorem range_eq_nil {first last : BitVec 64} (hrange : [] = range first last) :
    last.toInt ≤ first.toInt := by
  by_contra hlt
  rw [range_of_lt (by omega)] at hrange
  cases hrange

inductive Outcome (ω : Type) where
  | next (store : Store) (outside : Outside ω)
  | returned (value : Value) (outside : Outside ω)

/-- The newest local ends. -/
def Outcome.leave : Outcome ω → Outcome ω
  | .next store outside => .next store.tail outside
  | .returned value outside => .returned value outside

/-- What is left to do: a block, one of its statements, the rounds of a loop. -/
inductive Task where
  | block (body : List IrStmt)
  | statement (statement : IrStmt)
  | whileRounds (condition : IrExpr) (body : List IrStmt)
  | loopRounds (body : List IrStmt)
  | forRounds (name : Name) (values : List (BitVec 64)) (body : List IrStmt)

inductive Exec (oracle : Oracle ω) : Store → Outside ω → Task → Outcome ω → Prop where
  | done {store : Store} {outside : Outside ω} :
      Exec oracle store outside (.block []) (.next store outside)
  | letStmt {store : Store} {outside after : Outside ω} {name : Name} {isMutable : Bool}
      {type : TypeRef} {initializer : IrExpr} {value : Value} {rest : List IrStmt}
      {outcome : Outcome ω} :
      eval oracle store initializer outside = some (value, after) →
      Exec oracle ((name, ⟨value, isMutable⟩) :: store) after (.block rest) outcome →
      Exec oracle store outside (.block (.letStmt name isMutable type initializer :: rest))
        outcome.leave
  | next {store middle : Store} {outside after : Outside ω} {statement : IrStmt}
      {rest : List IrStmt} {outcome : Outcome ω} :
      Exec oracle store outside (.statement statement) (.next middle after) →
      Exec oracle middle after (.block rest) outcome →
      Exec oracle store outside (.block (statement :: rest)) outcome
  | leave {store : Store} {outside after : Outside ω} {statement : IrStmt} {value : Value}
      {rest : List IrStmt} :
      Exec oracle store outside (.statement statement) (.returned value after) →
      Exec oracle store outside (.block (statement :: rest)) (.returned value after)
  | assign {store middle : Store} {outside after : Outside ω} {type : TypeRef} {name : Name}
      {expression : IrExpr} {value : Value} :
      eval oracle store expression outside = some (value, after) →
      store.assign name value = some middle →
      Exec oracle store outside (.statement (.assign (.local type name) expression))
        (.next middle after)
  | returnNothing {store : Store} {outside : Outside ω} :
      Exec oracle store outside (.statement (.returnStmt none)) (.returned .void outside)
  | returnValue {store : Store} {outside after : Outside ω} {expression : IrExpr}
      {value : Value} :
      eval oracle store expression outside = some (value, after) →
      Exec oracle store outside (.statement (.returnStmt (some expression)))
        (.returned value after)
  | expr {store : Store} {outside after : Outside ω} {expression : IrExpr} {value : Value} :
      eval oracle store expression outside = some (value, after) →
      Exec oracle store outside (.statement (.expr expression)) (.next store after)
  | ifStmt {store : Store} {outside after : Outside ω} {condition : IrExpr} {test : Bool}
      {thenBlock : List IrStmt} {elseBlock : Option (List IrStmt)} {outcome : Outcome ω} :
      eval oracle store condition outside = some (.bool test, after) →
      Exec oracle store after (.block (if test then thenBlock else elseBlock.getD [])) outcome →
      Exec oracle store outside (.statement (.ifStmt condition thenBlock elseBlock)) outcome
  | whileStmt {store : Store} {outside : Outside ω} {condition : IrExpr} {body : List IrStmt}
      {outcome : Outcome ω} :
      Exec oracle store outside (.whileRounds condition body) outcome →
      Exec oracle store outside (.statement (.whileStmt condition body)) outcome
  | whileEnd {store : Store} {outside after : Outside ω} {condition : IrExpr}
      {body : List IrStmt} :
      eval oracle store condition outside = some (.bool false, after) →
      Exec oracle store outside (.whileRounds condition body) (.next store after)
  | whileNext {store middle : Store} {outside after after' : Outside ω} {condition : IrExpr}
      {body : List IrStmt} {outcome : Outcome ω} :
      eval oracle store condition outside = some (.bool true, after) →
      Exec oracle store after (.block body) (.next middle after') →
      Exec oracle middle after' (.whileRounds condition body) outcome →
      Exec oracle store outside (.whileRounds condition body) outcome
  | whileLeave {store : Store} {outside after after' : Outside ω} {condition : IrExpr}
      {body : List IrStmt} {value : Value} :
      eval oracle store condition outside = some (.bool true, after) →
      Exec oracle store after (.block body) (.returned value after') →
      Exec oracle store outside (.whileRounds condition body) (.returned value after')
  | loop {store : Store} {outside : Outside ω} {body : List IrStmt} {outcome : Outcome ω} :
      Exec oracle store outside (.loopRounds body) outcome →
      Exec oracle store outside (.statement (.loop body)) outcome
  | loopNext {store middle : Store} {outside after : Outside ω} {body : List IrStmt}
      {outcome : Outcome ω} :
      Exec oracle store outside (.block body) (.next middle after) →
      Exec oracle middle after (.loopRounds body) outcome →
      Exec oracle store outside (.loopRounds body) outcome
  | loopLeave {store : Store} {outside after : Outside ω} {body : List IrStmt} {value : Value} :
      Exec oracle store outside (.block body) (.returned value after) →
      Exec oracle store outside (.loopRounds body) (.returned value after)
  | forStmt {store : Store} {outside after after' : Outside ω} {name : Name} {type : TypeRef}
      {start stop : IrExpr} {first last : BitVec 64} {body : List IrStmt}
      {outcome : Outcome ω} :
      eval oracle store start outside = some (.int first, after) →
      eval oracle store stop after = some (.int last, after') →
      Exec oracle store after' (.forRounds name (range first last) body) outcome →
      Exec oracle store outside (.statement (.forStmt name type start stop body)) outcome
  | forEnd {store : Store} {outside : Outside ω} {name : Name} {body : List IrStmt} :
      Exec oracle store outside (.forRounds name [] body) (.next store outside)
  | forNext {store middle : Store} {outside after : Outside ω} {name : Name}
      {counter : Name × Local} {value : BitVec 64} {values : List (BitVec 64)}
      {body : List IrStmt} {outcome : Outcome ω} :
      Exec oracle ((name, ⟨.int value, false⟩) :: store) outside (.block body)
        (.next (counter :: middle) after) →
      Exec oracle middle after (.forRounds name values body) outcome →
      Exec oracle store outside (.forRounds name (value :: values) body) outcome
  | forLeave {store : Store} {outside after : Outside ω} {name : Name} {value : BitVec 64}
      {values : List (BitVec 64)} {body : List IrStmt} {returned : Value} :
      Exec oracle ((name, ⟨.int value, false⟩) :: store) outside (.block body)
        (.returned returned after) →
      Exec oracle store outside (.forRounds name (value :: values) body)
        (.returned returned after)

/-! What a `for` does, without the list of its counters. -/

/-- The body runs to its end so many times, each time with a counter that is one higher. -/
def CountsUp (oracle : Oracle ω) (name : Name) (body : List IrStmt) :
    Nat → Int → Store → Outside ω → Store → Outside ω → Prop
  | 0, _, store, outside, store', outside' => store' = store ∧ outside' = outside
  | rounds + 1, counter, store, outside, store', outside' =>
      ∃ value changed middle between, value.toInt = counter ∧
        Exec oracle ((name, ⟨.int value, false⟩) :: store) outside (.block body)
          (.next (changed :: middle) between) ∧
        CountsUp oracle name body rounds (counter + 1) middle between store' outside'

/-- The rounds of a `for` over `first..last` count from `first` up to `last - 1`. -/
theorem forRounds_iff {oracle : Oracle ω} {name : Name} {body : List IrStmt} {rounds : Nat}
    {first last : BitVec 64} (hrounds : (last.toInt - first.toInt).toNat = rounds)
    {store store' : Store} {outside outside' : Outside ω} :
    Exec oracle store outside (.forRounds name (range first last) body) (.next store' outside') ↔
      CountsUp oracle name body rounds first.toInt store outside store' outside' := by
  induction rounds generalizing first store outside with
  | zero =>
      rw [range_of_le (by omega), CountsUp]
      constructor
      · intro hexec
        cases hexec
        exact ⟨rfl, rfl⟩
      · rintro ⟨rfl, rfl⟩
        exact .forEnd
  | succ rounds ih =>
      have hlt : first.toInt < last.toInt := by omega
      have hsucc := toInt_succ_of_lt hlt
      have hrest : (last.toInt - (first + 1).toInt).toNat = rounds := by omega
      rw [range_of_lt hlt, CountsUp]
      constructor
      · intro hexec
        cases hexec with
        | @forNext _ middle _ between _ changed _ _ _ _ hbody hbehind =>
            have hcounts := (ih hrest).mp hbehind
            rw [hsucc] at hcounts
            exact ⟨first, changed, middle, between, rfl, hbody, hcounts⟩
      · rintro ⟨value, changed, middle, between, hvalue, hbody, hbehind⟩
        obtain rfl : value = first := BitVec.eq_of_toInt_eq hvalue
        rw [← hsucc] at hbehind
        exact .forNext hbody ((ih hrest).mpr hbehind)

/-- A `for` that ends evaluates its bounds once, in their order, and then counts. -/
theorem forStmt_iff {oracle : Oracle ω} {name : Name} {type : TypeRef} {start stop : IrExpr}
    {body : List IrStmt} {store store' : Store} {outside outside' : Outside ω} :
    Exec oracle store outside (.statement (.forStmt name type start stop body))
        (.next store' outside') ↔
      ∃ first last after after', eval oracle store start outside = some (.int first, after) ∧
        eval oracle store stop after = some (.int last, after') ∧
        CountsUp oracle name body (last.toInt - first.toInt).toNat first.toInt store after' store'
          outside' := by
  constructor
  · intro hexec
    cases hexec with
    | forStmt hstart hstop hrounds =>
        exact ⟨_, _, _, _, hstart, hstop, (forRounds_iff rfl).mp hrounds⟩
  · rintro ⟨first, last, after, after', hstart, hstop, hcounts⟩
    exact .forStmt hstart hstop ((forRounds_iff rfl).mpr hcounts)

def bindArguments (params : List Param) (arguments : List Value) : Store :=
  ((params.zip arguments).map fun entry => (entry.1.name, ⟨entry.2, false⟩)).reverse

/-- A call of the function returns the value; only a function without a result may reach its end. -/
inductive Returns (oracle : Oracle ω) (function : IrFunction) (arguments : List Value)
    (outside : Outside ω) : Value → Outside ω → Prop where
  | returned {value : Value} {after : Outside ω} :
      Exec oracle (bindArguments function.parameters arguments) outside (.block function.body)
        (.returned value after) →
      Returns oracle function arguments outside value after
  | fallOff {store : Store} {after : Outside ω} :
      function.returnType = .void →
      Exec oracle (bindArguments function.parameters arguments) outside (.block function.body)
        (.next store after) →
      Returns oracle function arguments outside .void after

end Scalar

end Cnegative
