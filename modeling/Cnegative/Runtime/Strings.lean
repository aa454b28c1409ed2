import Cnegative.Library.Linked

namespace Cnegative

namespace Strings

open Library

/-! The strings a program owns.  The blocks of the heap are their addresses: what a string
says plays no part in who releases it. -/

abbrev Addr := Nat

/-- What `malloc` and `realloc` answer, given the addresses in use; both always succeed. -/
structure Malloc where
  address : List Addr → Addr
  stays : List Addr → Addr → Bool
  fresh : ∀ used, address used ∉ used

/-- The addresses in use, the list at `@.cn.str_head`, and the nodes of that list by field. -/
structure Heap where
  used : List Addr
  head : Option Addr
  value : Addr → Addr
  next : Addr → Option Addr

/-- A program starts with the addresses of its literals and its other data. -/
def Heap.start (data : List Addr) : Heap :=
  { used := data, head := none, value := id, next := fun _ => none }

def Malloc.alloc (malloc : Malloc) (heap : Heap) : Addr × Heap :=
  (malloc.address heap.used, { heap with used := malloc.address heap.used :: heap.used })

/-- `free` of the C library. -/
def Heap.release (heap : Heap) (block : Addr) : Heap :=
  { heap with used := heap.used.erase block }

def Malloc.realloc (malloc : Malloc) (block : Addr) (heap : Heap) : Addr × Heap :=
  if malloc.stays heap.used block then (block, heap)
  else
    let (moved, heap) := malloc.alloc heap
    (moved, heap.release block)

def trackStr (malloc : Malloc) (value : Addr) (heap : Heap) : Heap :=
  let (node, heap) := malloc.alloc heap
  { heap with
    value := setField heap.value node value
    next := setField heap.next node heap.head
    head := some node }

/-- The loop of `cn_free_str`: the node that holds the value and the one in front of it.  The
outer `none` is a loop that is still running after so many turns. -/
def findNode (heap : Heap) (value : Addr) :
    Nat → Option Addr → Option Addr → Option (Option (Option Addr × Addr))
  | 0, _, _ => none
  | _ + 1, _, none => some none
  | turns + 1, prev, some curr =>
      if heap.value curr = value then some (some (prev, curr))
      else findNode heap value turns (some curr) (heap.next curr)

/-- The blocks `unlink.prev`, `unlink.head` and `free.node`. -/
def unlinkNode (prev : Option Addr) (curr : Addr) (heap : Heap) : Heap :=
  let heap := match prev with
    | some prev => { heap with next := setField heap.next prev (heap.next curr) }
    | none => { heap with head := heap.next curr }
  (heap.release (heap.value curr)).release curr

/-- `cn_free_str`; `none` when its loop does not end. -/
def freeStr (value : Addr) (heap : Heap) : Option Heap :=
  match findNode heap value (heap.used.length + 1) none heap.head with
  | none => none
  | some none => some heap
  | some (some (prev, curr)) => some (unlinkNode prev curr heap)

/-! The functions that return strings.  A function gives the blocks it returns; `@.cn.empty`
is no block.  What decides the way through a function is an argument of it. -/

abbrev Producer := Malloc → Heap → List Addr × Heap

def returnErr : Producer := fun _ heap => ([], heap)

/-- A new block, tracked and returned: `cn_dup_cstr`, `cn_dup_range` and `cn_concat_str`. -/
def dupBlock : Producer := fun malloc heap =>
  let (dst, heap) := malloc.alloc heap
  ([dst], trackStr malloc dst heap)

def dupCstr : Producer := dupBlock

def dupRange : Producer := dupBlock

def concatStr : Producer := dupBlock

/-- A new block that is tracked and returned when it could be filled, and released otherwise. -/
def filledBlock (filled : Bool) : Producer := fun malloc heap =>
  let (buffer, heap) := malloc.alloc heap
  if filled then ([buffer], trackStr malloc buffer heap)
  else ([], heap.release buffer)

def fromInt (formatted : Bool) : Producer :=
  if formatted then dupRange else returnErr

def input : Producer := dupCstr

def envGet (isSet : Bool) : Producer :=
  if isSet then dupCstr else returnErr

def processPlatform : Producer := dupCstr

def processArch : Producer := dupCstr

/-- `cn_term_term_name`, on a POSIX system. -/
def termName (hasTerm : Bool) : Producer :=
  if hasTerm then dupCstr else returnErr

def textBuild (hasBuilder : Bool) : Producer :=
  if hasBuilder then dupRange else returnErr

def pathJoin (leftEmpty rightEmpty : Bool) : Producer :=
  if leftEmpty then dupCstr
  else if rightEmpty then dupCstr
  else dupBlock

def pathFileName : Producer := dupCstr

def pathStem (dotValid : Bool) : Producer :=
  if dotValid then dupRange else dupCstr

def pathExtension (dotValid : Bool) : Producer :=
  if dotValid then dupCstr else dupRange

def pathParent (hasSep isRoot : Bool) : Producer :=
  if hasSep then (if isRoot then dupRange else dupRange) else returnErr

def fsCwd (hasCwd : Bool) : Producer := filledBlock hasCwd

/-- The loop of `cn_fs_read_text`, with the number of characters still to come. -/
def readTextLoop (malloc : Malloc) : Nat → Nat → Nat → Addr → Heap → Addr × Heap
  | 0, _, _, buffer, heap => (buffer, heap)
  | left + 1, length, capacity, buffer, heap =>
      if length + 1 + 1 ≤ capacity then readTextLoop malloc left (length + 1) capacity buffer heap
      else
        let (resized, heap) := malloc.realloc buffer heap
        readTextLoop malloc left (length + 1) (capacity * 2) resized heap

/-- `cn_fs_read_text`; `size` is the number of characters of the file. -/
def fsReadText (hasFile : Bool) (size : Nat) : Producer := fun malloc heap =>
  if hasFile then
    let (buffer, heap) := malloc.alloc heap
    let (buffer, heap) := readTextLoop malloc size 0 64 buffer heap
    ([buffer], trackStr malloc buffer heap)
  else ([], heap)

def joinHostPort (formatted : Bool) : Producer := filledBlock formatted

/-- `cn_net_recv_chunk`; `received` is the answer of `recv`. -/
def recvChunk (maxBytes received : Int) : Producer :=
  if 0 < maxBytes then filledBlock (0 ≤ received) else returnErr

def netRecv (ready : Bool) (maxBytes received : Int) : Producer :=
  if ready then recvChunk maxBytes received else returnErr

/-- `cn_net_dup_sockaddr_host`; the block is not tracked yet. -/
def dupSockaddrHost (formatted : Bool) (malloc : Malloc) (heap : Heap) : Option Addr × Heap :=
  let (buffer, heap) := malloc.alloc heap
  if formatted then (some buffer, heap) else (none, heap.release buffer)

def udpRecvFrom (ready : Bool) (maxBytes received : Int) (formatted : Bool) : Producer :=
  fun malloc heap =>
    if ready && decide (0 < maxBytes) then
      let (buffer, heap) := malloc.alloc heap
      if 0 ≤ received then
        match dupSockaddrHost formatted malloc heap with
        | (some host, heap) =>
          ([host, buffer], trackStr malloc host (trackStr malloc buffer heap))
        | (none, heap) => ([], heap.release buffer)
      else ([], heap.release buffer)
    else ([], heap)

def pasteEnd : List UInt8 := [27, 91, 50, 48, 49, 126]

/-- The loop of `cn_term_read_paste`: the buffer, and whether the end of the paste was read
before the input ended. -/
def readPasteLoop (malloc : Malloc) :
    List UInt8 → List UInt8 → Nat → Addr → Heap → (Addr × Bool) × Heap
  | [], _, _, buffer, heap => ((buffer, false), heap)
  | byte :: rest, text, capacity, buffer, heap =>
      let grow : Bool := capacity < text.length + 2
      let (buffer, heap) := if grow then malloc.realloc buffer heap else (buffer, heap)
      if pasteEnd.isSuffixOf (text ++ [byte]) then ((buffer, true), heap)
      else
        readPasteLoop malloc rest (text ++ [byte]) (if grow then capacity * 2 else capacity)
          buffer heap

/-- `cn_term_read_paste`; `bytes` are the answers of `cn_term_read_byte_block`. -/
def readPaste (bytes : List UInt8) : Producer := fun malloc heap =>
  let (buffer, heap) := malloc.alloc heap
  match readPasteLoop malloc bytes [] 64 buffer heap with
  | ((buffer, true), heap) => ([buffer], trackStr malloc buffer heap)
  | ((buffer, false), heap) => ([], heap.release buffer)

/-- `cn_ipc_read_fd` and `cn_ipc_read_line_fd`: a new block when something could be read. -/
def ipcNativeRead (isOpen : Bool) (maxBytes : Int) (received : Bool) (malloc : Malloc)
    (heap : Heap) : Option Addr × Heap :=
  if isOpen && decide (0 < maxBytes) then
    let (buffer, heap) := malloc.alloc heap
    if received then (some buffer, heap) else (none, heap.release buffer)
  else (none, heap)

/-- What the four reads of the process runtime do with the pointer. -/
def ipcRead (isOpen : Bool) (maxBytes : Int) (received : Bool) : Producer := fun malloc heap =>
  match ipcNativeRead isOpen maxBytes received malloc heap with
  | (some value, heap) => ([value], heap)
  | (none, heap) => ([], heap)

def ipcStdoutRead : Bool → Int → Bool → Producer := ipcRead

def ipcStdoutReadLine : Bool → Int → Bool → Producer := ipcRead

def ipcStderrRead : Bool → Int → Bool → Producer := ipcRead

def ipcStderrReadLine : Bool → Int → Bool → Producer := ipcRead

/-- `cn_ipc_request_line`; `written` says whether the whole line was written. -/
def ipcRequestLine (written isOpen : Bool) (maxBytes : Int) (received : Bool) : Producer :=
  if written then ipcStdoutReadLine isOpen maxBytes received else returnErr

inductive Call where
  | input
  | strCopy
  | strConcat
  | fromInt (formatted : Bool)
  | textBuild (hasBuilder : Bool)
  | pathJoin (leftEmpty rightEmpty : Bool)
  | pathFileName
  | pathStem (dotValid : Bool)
  | pathExtension (dotValid : Bool)
  | pathParent (hasSep isRoot : Bool)
  | fsCwd (hasCwd : Bool)
  | fsReadText (hasFile : Bool) (size : Nat)
  | netJoinHostPort (formatted : Bool)
  | netRecv (ready : Bool) (maxBytes received : Int)
  | netUdpRecvFrom (ready : Bool) (maxBytes received : Int) (formatted : Bool)
  | ipcStdoutRead (isOpen : Bool) (maxBytes : Int) (received : Bool)
  | ipcStdoutReadLine (isOpen : Bool) (maxBytes : Int) (received : Bool)
  | ipcRequestLine (written isOpen : Bool) (maxBytes : Int) (received : Bool)
  | ipcStderrRead (isOpen : Bool) (maxBytes : Int) (received : Bool)
  | ipcStderrReadLine (isOpen : Bool) (maxBytes : Int) (received : Bool)
  | termName (hasTerm : Bool)
  | termReadPaste (bytes : List UInt8)
  | processPlatform
  | processArch
  | envGet (isSet : Bool)
  | free (value : Addr)
  deriving DecidableEq, Repr

/-- The function behind a call; `none` for `free`. -/
def Call.producer : Call → Option Producer
  | .input => some Strings.input
  | .strCopy => some dupCstr
  | .strConcat => some concatStr
  | .fromInt formatted => some (Strings.fromInt formatted)
  | .textBuild hasBuilder => some (Strings.textBuild hasBuilder)
  | .pathJoin leftEmpty rightEmpty => some (Strings.pathJoin leftEmpty rightEmpty)
  | .pathFileName => some Strings.pathFileName
  | .pathStem dotValid => some (Strings.pathStem dotValid)
  | .pathExtension dotValid => some (Strings.pathExtension dotValid)
  | .pathParent hasSep isRoot => some (Strings.pathParent hasSep isRoot)
  | .fsCwd hasCwd => some (Strings.fsCwd hasCwd)
  | .fsReadText hasFile size => some (Strings.fsReadText hasFile size)
  | .netJoinHostPort formatted => some (joinHostPort formatted)
  | .netRecv ready maxBytes received => some (Strings.netRecv ready maxBytes received)
  | .netUdpRecvFrom ready maxBytes received formatted =>
      some (udpRecvFrom ready maxBytes received formatted)
  | .ipcStdoutRead isOpen maxBytes received => some (Strings.ipcStdoutRead isOpen maxBytes received)
  | .ipcStdoutReadLine isOpen maxBytes received =>
      some (Strings.ipcStdoutReadLine isOpen maxBytes received)
  | .ipcRequestLine written isOpen maxBytes received =>
      some (Strings.ipcRequestLine written isOpen maxBytes received)
  | .ipcStderrRead isOpen maxBytes received => some (Strings.ipcStderrRead isOpen maxBytes received)
  | .ipcStderrReadLine isOpen maxBytes received =>
      some (Strings.ipcStderrReadLine isOpen maxBytes received)
  | .termName hasTerm => some (Strings.termName hasTerm)
  | .termReadPaste bytes => some (readPaste bytes)
  | .processPlatform => some Strings.processPlatform
  | .processArch => some Strings.processArch
  | .envGet isSet => some (Strings.envGet isSet)
  | .free _ => none

structure State where
  heap : Heap
  owned : List Addr

/-- One call; `malloc` answers as it likes each time. -/
def step (malloc : Malloc) (call : Call) (state : State) : Option State :=
  match call with
  | .free value => (freeStr value state.heap).map (⟨·, state.owned.erase value⟩)
  | call =>
    match call.producer with
    | none => some state
    | some producer =>
      let (returned, heap) := producer malloc state.heap
      some ⟨heap, returned ++ state.owned⟩

def run : List (Malloc × Call) → State → Option State
  | [], state => some state
  | (malloc, call) :: rest, state => (step malloc call state).bind (run rest)

end Strings

end Cnegative
