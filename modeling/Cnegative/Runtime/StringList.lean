import Mathlib.Data.List.Perm.Basic
import Mathlib.Data.List.Perm.Subperm
import Cnegative.Runtime.Strings

namespace Cnegative

namespace Strings

open Library

variable {data held owned cells used blocks : List Addr} {heap : Heap} {block : Addr}

/-! The addresses in use are those of the data and those of some blocks. -/

structure Occupied (data used blocks : List Addr) : Prop where
  used : used.Perm (data ++ blocks)
  apart : blocks.Nodup
  clear : ∀ block ∈ blocks, block ∉ data

namespace Occupied

theorem perm {blocks' : List Addr} (hocc : Occupied data used blocks)
    (hperm : blocks.Perm blocks') : Occupied data used blocks' where
  used := hocc.used.trans (hperm.append_left data)
  apart := hperm.nodup hocc.apart
  clear block hmem := hocc.clear block (hperm.mem_iff.mpr hmem)

theorem alloc (hocc : Occupied data used blocks) (hfresh : block ∉ used) :
    Occupied data (block :: used) (block :: blocks) := by
  have hapart : block ∉ data ++ blocks := fun hmem => hfresh (hocc.used.mem_iff.mpr hmem)
  rw [List.mem_append, not_or] at hapart
  refine ⟨(hocc.used.cons block).trans List.perm_middle.symm, ?_, ?_⟩
  · exact List.nodup_cons.mpr ⟨hapart.2, hocc.apart⟩
  · intro other hother
    cases hother with
    | head => exact hapart.1
    | tail _ hmem => exact hocc.clear other hmem

theorem release (hocc : Occupied data used (block :: blocks)) :
    Occupied data (used.erase block) blocks := by
  refine ⟨?_, (List.nodup_cons.mp hocc.apart).2, fun other hother =>
    hocc.clear other (List.mem_cons_of_mem _ hother)⟩
  have herase := (hocc.used.trans List.perm_middle).erase block
  rwa [List.erase_cons_head] at herase

end Occupied

/-- The list of the runtime holds the owned strings, each once.  The addresses in use are the
data, the blocks that a function holds just now, the owned strings and the nodes. -/
structure Tracks (data held : List Addr) (heap : Heap) (owned cells : List Addr) : Prop where
  chain : Chained heap.next heap.head cells none
  values : (cells.map heap.value).Perm owned
  occupied : Occupied data heap.used (held ++ (owned ++ cells))

def Tracked (data held : List Addr) (heap : Heap) (owned : List Addr) : Prop :=
  ∃ cells, Tracks data held heap owned cells

theorem tracked_start (data : List Addr) : Tracked data [] (Heap.start data) [] := by
  refine ⟨[], rfl, List.Perm.refl _, ?_, List.nodup_nil, ?_⟩
  · simp [Heap.start]
  · intro block hmem
    cases hmem

/-! Blocks taken and given back. -/

namespace Tracked

theorem alloc (malloc : Malloc) (htracked : Tracked data held heap owned) :
    Tracked data ((malloc.alloc heap).1 :: held) (malloc.alloc heap).2 owned := by
  obtain ⟨cells, hchain, hvalues, hocc⟩ := htracked
  exact ⟨cells, hchain, hvalues, hocc.alloc (malloc.fresh heap.used)⟩

theorem release (htracked : Tracked data (block :: held) heap owned) :
    Tracked data held (heap.release block) owned := by
  obtain ⟨cells, hchain, hvalues, hocc⟩ := htracked
  exact ⟨cells, hchain, hvalues, hocc.release⟩

theorem swap {other : Addr} (htracked : Tracked data (block :: other :: held) heap owned) :
    Tracked data (other :: block :: held) heap owned := by
  obtain ⟨cells, hchain, hvalues, hocc⟩ := htracked
  exact ⟨cells, hchain, hvalues, hocc.perm (List.Perm.swap _ _ _)⟩

theorem realloc (malloc : Malloc) (htracked : Tracked data (block :: held) heap owned) :
    Tracked data ((malloc.realloc block heap).1 :: held) (malloc.realloc block heap).2 owned := by
  unfold Malloc.realloc
  split
  · exact htracked
  · exact (htracked.alloc malloc).swap.release

/-- `cn_track_str` puts a held block in front of the list. -/
theorem track (malloc : Malloc) (htracked : Tracked data (block :: held) heap owned) :
    Tracked data held (trackStr malloc block heap) (block :: owned) := by
  obtain ⟨cells, hchain, hvalues, hocc⟩ := htracked
  have halloc := hocc.alloc (malloc.fresh heap.used)
  have hnew : malloc.address heap.used ∉ cells := fun hmem =>
    (List.nodup_cons.mp halloc.apart).1
      (List.mem_append_right _ (List.mem_append_right _ hmem))
  refine ⟨malloc.address heap.used :: cells, ⟨rfl, ?_⟩, ?_, halloc.perm ?_⟩
  · simp only [trackStr, Malloc.alloc, setField_same]
    exact hchain.setField hnew _
  · have hsame : cells.map (setField heap.value (malloc.address heap.used) block) =
        cells.map heap.value :=
      List.map_congr_left fun other hother => setField_other fun heq => hnew (heq ▸ hother)
    simp only [trackStr, Malloc.alloc, List.map_cons, setField_same, hsame]
    exact hvalues.cons block
  · refine List.perm_iff_count.mpr fun other => ?_
    simp only [List.count_cons, List.count_append, List.cons_append]
    omega

end Tracked

/-! The search of `cn_free_str` ends, and finds the node of a value that is on the list. -/

theorem findNode_absent (prev : Option Addr) {value : Addr} {turns : Nat} {start : Option Addr}
    (hchain : Chained heap.next start cells none) (hturns : cells.length < turns)
    (habsent : value ∉ cells.map heap.value) :
    findNode heap value turns prev start = some none := by
  induction cells generalizing turns prev start with
  | nil =>
      obtain ⟨turns, rfl⟩ := Nat.exists_eq_add_one_of_ne_zero (Nat.ne_zero_of_lt hturns)
      rw [show start = none from hchain]
      rfl
  | cons cell rest ih =>
      obtain ⟨turns, rfl⟩ := Nat.exists_eq_add_one_of_ne_zero (Nat.ne_zero_of_lt hturns)
      obtain ⟨rfl, hrest⟩ := hchain
      rw [List.map_cons, List.mem_cons, not_or] at habsent
      rw [findNode, if_neg (Ne.symm habsent.1)]
      exact ih (some cell) hrest (by simpa using hturns) habsent.2

theorem findNode_present (prev : Option Addr) {value : Addr} {turns : Nat} {start : Option Addr}
    (hchain : Chained heap.next start cells none) (hturns : cells.length < turns)
    (hmem : value ∈ cells.map heap.value) :
    ∃ front curr back, cells = front ++ curr :: back ∧ heap.value curr = value ∧
      findNode heap value turns prev start = some (some (lastOr prev front, curr)) := by
  induction cells generalizing turns prev start with
  | nil => cases hmem
  | cons cell rest ih =>
      obtain ⟨turns, rfl⟩ := Nat.exists_eq_add_one_of_ne_zero (Nat.ne_zero_of_lt hturns)
      obtain ⟨rfl, hrest⟩ := hchain
      rw [findNode]
      split
      case isTrue hvalue => exact ⟨[], cell, rest, rfl, hvalue, rfl⟩
      case isFalse hvalue =>
        have hmem : value ∈ rest.map heap.value := by
          cases List.mem_cons.mp hmem with
          | inl heq => exact absurd heq.symm hvalue
          | inr hmem => exact hmem
        obtain ⟨front, curr, back, rfl, hcurr, hfind⟩ :=
          ih (some cell) hrest (by simpa using hturns) hmem
        exact ⟨cell :: front, curr, back, rfl, hcurr, hfind⟩

theorem Tracks.turns (htracks : Tracks data held heap owned cells) :
    cells.length < heap.used.length + 1 := by
  have hlength := htracks.occupied.used.length_eq
  simp only [List.length_append] at hlength
  omega

/-- The node is taken out at the head or in the middle. -/
theorem chained_unlinkNode {front back : List Addr} {curr : Addr}
    (hnodup : (front ++ curr :: back).Nodup)
    (hchain : Chained heap.next heap.head (front ++ curr :: back) none) :
    Chained (unlinkNode (lastOr none front) curr heap).next
      (unlinkNode (lastOr none front) curr heap).head (front ++ back) none := by
  cases front using List.reverseRecOn with
  | nil => exact hchain.2
  | append_singleton front last =>
      obtain ⟨middle, hfront, rfl, hback⟩ := Chained.append.mp hchain
      have hdisjoint := List.nodup_append.mp hnodup
      have hlast : last ∉ front := fun hmem =>
        (List.nodup_append.mp hdisjoint.1).2.2 last hmem last (List.mem_singleton_self _) rfl
      have hfresh : last ∉ back := fun hmem =>
        hdisjoint.2.2 last (by simp) last (List.mem_cons_of_mem _ hmem) rfl
      rw [lastOr_concat]
      exact Chained.append.mpr
        ⟨heap.next curr, hfront.retarget hlast (heap.next curr), hback.setField hfresh _⟩

@[simp] theorem unlinkNode_value (prev : Option Addr) (curr : Addr) (heap : Heap) :
    (unlinkNode prev curr heap).value = heap.value := by
  cases prev <;> rfl

@[simp] theorem unlinkNode_used (prev : Option Addr) (curr : Addr) (heap : Heap) :
    (unlinkNode prev curr heap).used = (heap.used.erase (heap.value curr)).erase curr := by
  cases prev <;> rfl

/-! `cn_free_str`. -/

theorem Tracks.free_other {value : Addr} (htracks : Tracks data held heap owned cells)
    (hother : value ∉ owned) : freeStr value heap = some heap := by
  have habsent : value ∉ cells.map heap.value := fun hmem =>
    hother (htracks.values.mem_iff.mp hmem)
  rw [freeStr, findNode_absent none htracks.chain htracks.turns habsent]

theorem Tracks.free_owned {value : Addr} (htracks : Tracks data held heap owned cells)
    (hmem : value ∈ owned) :
    ∃ node heap', freeStr value heap = some heap' ∧
      heap'.used = (heap.used.erase value).erase node ∧
      Tracks data held heap' (owned.erase value) (cells.erase node) := by
  obtain ⟨front, curr, back, rfl, rfl, hfind⟩ := findNode_present none htracks.chain
    htracks.turns (htracks.values.mem_iff.mpr hmem)
  have hnodup : (front ++ curr :: back).Nodup :=
    (List.nodup_append.mp (List.nodup_append.mp htracks.occupied.apart).2.1).2.1
  have hfront : curr ∉ front := fun hcurr =>
    (List.nodup_append.mp hnodup).2.2 curr hcurr curr (List.mem_cons_self ..) rfl
  have hvalues := htracks.values
  rw [List.map_append, List.map_cons] at hvalues
  refine ⟨curr, _, by rw [freeStr, hfind], by simp, ?_⟩
  rw [List.erase_append_right _ hfront, List.erase_cons_head]
  refine ⟨chained_unlinkNode hnodup htracks.chain, ?_, ?_⟩
  · have herase := (List.perm_middle.symm.trans hvalues).erase (heap.value curr)
    rw [List.erase_cons_head, ← List.map_append] at herase
    rwa [unlinkNode_value]
  · rw [unlinkNode_used]
    refine (htracks.occupied.perm ?_).release.release
    have howned := List.perm_iff_count.mp (List.perm_cons_erase hmem)
    refine List.perm_iff_count.mpr fun other => ?_
    have hcount := howned other
    simp only [List.count_cons, List.count_append] at hcount ⊢
    omega

/-! The functions that return strings. -/

/-- What a function returns is new on the list, and it keeps no other block. -/
def Registers (producer : Producer) : Prop :=
  ∀ (malloc : Malloc) {data held : List Addr} {heap : Heap} {owned : List Addr},
    Tracked data held heap owned →
      Tracked data held (producer malloc heap).2 ((producer malloc heap).1 ++ owned)

namespace Registers

theorem returnErr : Registers returnErr := fun _ _ _ _ _ htracked => htracked

theorem dupBlock : Registers dupBlock := fun malloc _ _ _ _ htracked =>
  (htracked.alloc malloc).track malloc

theorem ite {condition : Prop} [Decidable condition] {producer other : Producer}
    (hthen : Registers producer) (helse : Registers other) :
    Registers (if condition then producer else other) := by
  split
  · exact hthen
  · exact helse

theorem filledBlock (filled : Bool) : Registers (filledBlock filled) := by
  intro malloc data held heap owned htracked
  have halloc := htracked.alloc malloc
  cases filled with
  | true => exact halloc.track malloc
  | false => exact halloc.release

/-- The buffer moves while the file is read; it stays the one block held. -/
theorem readTextLoop (malloc : Malloc) {left length capacity : Nat}
    (htracked : Tracked data (block :: held) heap owned) :
    Tracked data ((readTextLoop malloc left length capacity block heap).1 :: held)
      (readTextLoop malloc left length capacity block heap).2 owned := by
  induction left generalizing length capacity block heap with
  | zero => exact htracked
  | succ left ih =>
      unfold Strings.readTextLoop
      split
      · exact ih htracked
      · exact ih (htracked.realloc malloc)

theorem fsReadText (hasFile : Bool) (size : Nat) : Registers (fsReadText hasFile size) := by
  intro malloc data held heap owned htracked
  cases hasFile with
  | false => exact htracked
  | true => exact (readTextLoop malloc (htracked.alloc malloc)).track malloc

theorem readPasteLoop (malloc : Malloc) (bytes text : List UInt8) (capacity : Nat)
    (htracked : Tracked data (block :: held) heap owned) :
    Tracked data ((readPasteLoop malloc bytes text capacity block heap).1.1 :: held)
      (readPasteLoop malloc bytes text capacity block heap).2 owned := by
  induction bytes generalizing text capacity block heap with
  | nil => exact htracked
  | cons byte rest ih =>
      have hgrown : ∀ grow : Bool,
          Tracked data ((if grow then malloc.realloc block heap else (block, heap)).1 :: held)
            (if grow then malloc.realloc block heap else (block, heap)).2 owned := by
        intro grow
        cases grow with
        | true => exact htracked.realloc malloc
        | false => exact htracked
      unfold Strings.readPasteLoop
      split
      · exact hgrown _
      · exact ih _ _ (hgrown _)

theorem readPaste (bytes : List UInt8) : Registers (readPaste bytes) := by
  intro malloc data held heap owned htracked
  have hloop := readPasteLoop malloc bytes [] 64 (htracked.alloc malloc)
  unfold Strings.readPaste
  generalize hread : Strings.readPasteLoop malloc bytes [] 64 (malloc.alloc heap).1
    (malloc.alloc heap).2 = answer at hloop
  obtain ⟨⟨buffer, ended⟩, heap'⟩ := answer
  cases ended with
  | true =>
      simp only [hread]
      exact hloop.track malloc
  | false =>
      simp only [hread]
      exact hloop.release

theorem udpRecvFrom (ready : Bool) (maxBytes received : Int) (formatted : Bool) :
    Registers (udpRecvFrom ready maxBytes received formatted) := by
  intro malloc data held heap owned htracked
  have hbuffer := htracked.alloc malloc
  have hhost := hbuffer.alloc malloc
  unfold Strings.udpRecvFrom
  split
  case isFalse => exact htracked
  case isTrue =>
    dsimp only
    split
    case isFalse => exact hbuffer.release
    case isTrue =>
      cases formatted with
      | true => exact (hhost.swap.track malloc).track malloc
      | false => exact hhost.release.release

theorem pathJoin (leftEmpty rightEmpty : Bool) : Registers (pathJoin leftEmpty rightEmpty) :=
  dupBlock.ite (dupBlock.ite dupBlock)

theorem pathParent (hasSep isRoot : Bool) : Registers (pathParent hasSep isRoot) :=
  (dupBlock.ite dupBlock).ite returnErr

theorem netRecv (ready : Bool) (maxBytes received : Int) :
    Registers (netRecv ready maxBytes received) :=
  ((filledBlock _).ite returnErr).ite returnErr

end Registers

/-- Nothing could be read: the buffer is given back, and no string is returned. -/
theorem ipcRead_failed (isOpen : Bool) (maxBytes : Int) (received : Bool)
    (hfailed : ¬ (isOpen = true ∧ 0 < maxBytes ∧ received = true)) :
    Registers (ipcRead isOpen maxBytes received) := by
  intro malloc data held heap owned htracked
  unfold ipcRead ipcNativeRead
  cases isOpen with
  | false => exact htracked
  | true =>
      by_cases hpositive : 0 < maxBytes
      · cases received with
        | true => exact absurd ⟨rfl, hpositive, rfl⟩ hfailed
        | false =>
            simp only [hpositive, decide_true, Bool.and_true, if_true]
            exact (htracked.alloc malloc).release
      · simp only [hpositive, decide_false, Bool.and_false]
        exact htracked

def Call.HandsOver : Call → Prop
  | .ipcStdoutRead isOpen maxBytes received
  | .ipcStdoutReadLine isOpen maxBytes received
  | .ipcStderrRead isOpen maxBytes received
  | .ipcStderrReadLine isOpen maxBytes received =>
      isOpen = true ∧ 0 < maxBytes ∧ received = true
  | .ipcRequestLine written isOpen maxBytes received =>
      written = true ∧ isOpen = true ∧ 0 < maxBytes ∧ received = true
  | _ => False

theorem Call.registers {call : Call} {producer : Producer} (hcall : ¬ call.HandsOver)
    (hproducer : call.producer = some producer) : Registers producer := by
  cases call with
  | free value => cases hproducer
  | input | strCopy | strConcat | pathFileName | processPlatform | processArch =>
      cases hproducer
      exact Registers.dupBlock
  | fromInt | textBuild | termName | envGet =>
      cases hproducer
      exact Registers.dupBlock.ite Registers.returnErr
  | pathStem | pathExtension =>
      cases hproducer
      exact Registers.dupBlock.ite Registers.dupBlock
  | pathJoin leftEmpty rightEmpty =>
      cases hproducer
      exact Registers.pathJoin leftEmpty rightEmpty
  | pathParent hasSep isRoot =>
      cases hproducer
      exact Registers.pathParent hasSep isRoot
  | fsCwd | netJoinHostPort =>
      cases hproducer
      exact Registers.filledBlock _
  | fsReadText hasFile size =>
      cases hproducer
      exact Registers.fsReadText hasFile size
  | netRecv ready maxBytes received =>
      cases hproducer
      exact Registers.netRecv ready maxBytes received
  | netUdpRecvFrom ready maxBytes received formatted =>
      cases hproducer
      exact Registers.udpRecvFrom ready maxBytes received formatted
  | termReadPaste bytes =>
      cases hproducer
      exact Registers.readPaste bytes
  | ipcStdoutRead | ipcStdoutReadLine | ipcStderrRead | ipcStderrReadLine =>
      cases hproducer
      exact ipcRead_failed _ _ _ hcall
  | ipcRequestLine written isOpen maxBytes received =>
      cases hproducer
      cases written with
      | false => exact Registers.returnErr
      | true => exact ipcRead_failed _ _ _ fun h => hcall ⟨rfl, h⟩

/-! Whole runs. -/

def State.Tracked (data : List Addr) (state : State) : Prop :=
  Strings.Tracked data [] state.heap state.owned

theorem tracked_step (malloc : Malloc) {call : Call} (hcall : ¬ call.HandsOver) {state : State}
    (htracked : state.Tracked data) :
    ∃ state', step malloc call state = some state' ∧ state'.Tracked data := by
  by_cases hfree : ∃ value, call = .free value
  · obtain ⟨value, rfl⟩ := hfree
    obtain ⟨cells, htracks⟩ := htracked
    by_cases hmem : value ∈ state.owned
    · obtain ⟨node, heap', hfreed, -, hafter⟩ := htracks.free_owned hmem
      exact ⟨⟨heap', state.owned.erase value⟩, by simp [step, hfreed], _, hafter⟩
    · refine ⟨⟨state.heap, state.owned⟩, ?_, cells, htracks⟩
      simp [step, htracks.free_other hmem, List.erase_of_not_mem hmem]
  · obtain ⟨producer, hproducer⟩ : ∃ producer, call.producer = some producer := by
      cases call with
      | free value => exact absurd ⟨value, rfl⟩ hfree
      | _ => exact ⟨_, rfl⟩
    refine ⟨⟨(producer malloc state.heap).2, (producer malloc state.heap).1 ++ state.owned⟩, ?_,
        Call.registers hcall hproducer malloc htracked⟩
    cases call with
    | free value => exact absurd ⟨value, rfl⟩ hfree
    | _ =>
        cases hproducer
        rfl

theorem tracked_run {calls : List (Malloc × Call)} (hcalls : ∀ call ∈ calls, ¬ call.2.HandsOver)
    {state : State} (htracked : state.Tracked data) :
    ∃ state', run calls state = some state' ∧ state'.Tracked data := by
  induction calls generalizing state with
  | nil => exact ⟨state, rfl, htracked⟩
  | cons call rest ih =>
      obtain ⟨malloc, call⟩ := call
      obtain ⟨middle, hstep, hmiddle⟩ :=
        tracked_step malloc (hcalls _ (List.mem_cons_self ..)) htracked
      obtain ⟨state', hrun, hstate'⟩ :=
        ih (fun other hother => hcalls other (List.mem_cons_of_mem _ hother)) hmiddle
      exact ⟨state', by simp only [run, hstep, Option.bind_some, hrun], hstate'⟩

/-- What the list and `free` are to each other in one state. -/
structure State.Sound (data : List Addr) (state : State) : Prop where
  /-- The list runs over nodes whose values are the owned strings, each once. -/
  listed : ∃ cells, Chained state.heap.next state.heap.head cells none ∧
    (cells.map state.heap.value).Perm state.owned ∧ (state.owned ++ cells).Nodup ∧
    state.heap.used.Perm (data ++ (state.owned ++ cells))
  /-- An owned string is released with its node, and every other entry stays. -/
  freesOwned : ∀ value ∈ state.owned, ∃ node heap cells,
    freeStr value state.heap = some heap ∧
      heap.used = (state.heap.used.erase value).erase node ∧ value ∉ heap.used ∧
      Chained heap.next heap.head cells none ∧
      (cells.map heap.value).Perm (state.owned.erase value) ∧
      freeStr value heap = some heap
  /-- Nothing happens for any other address. -/
  keepsOther : ∀ value, value ∉ state.owned → freeStr value state.heap = some state.heap
  /-- The literals are among them. -/
  literals : ∀ value ∈ data, value ∉ state.owned

theorem State.Tracked.sound {state : State} (htracked : state.Tracked data) :
    state.Sound data := by
  obtain ⟨cells, htracks⟩ := htracked
  have hocc : Occupied data state.heap.used (state.owned ++ cells) := htracks.occupied
  have howned : state.owned.Nodup := (List.nodup_append.mp hocc.apart).1
  refine ⟨⟨cells, htracks.chain, htracks.values, hocc.apart, hocc.used⟩,
    fun value hmem => ?_, fun value hother => htracks.free_other hother,
    fun value hdata hmem => hocc.clear value (List.mem_append_left _ hmem) hdata⟩
  obtain ⟨node, heap, hfreed, hused, hafter⟩ := htracks.free_owned hmem
  have hgone : value ∉ state.owned.erase value := howned.not_mem_erase
  refine ⟨node, heap, _, hfreed, hused, fun hin => ?_, hafter.chain, hafter.values,
    hafter.free_other hgone⟩
  have hwhere := hafter.occupied.used.mem_iff.mp hin
  simp only [List.nil_append, List.mem_append] at hwhere
  obtain hdata | hstill | hnode := hwhere
  · exact hocc.clear value (List.mem_append_left _ hmem) hdata
  · exact hgone hstill
  · exact (List.nodup_append.mp hocc.apart).2.2 value hmem value (List.mem_of_mem_erase hnode) rfl

/-- In every run in which no read of the process runtime hands over a text, the list is in
step with the owned strings in every state. -/
theorem owned_strings_tracked (data : List Addr) (calls : List (Malloc × Call))
    (hcalls : ∀ call ∈ calls, ¬ call.2.HandsOver) :
    ∃ state, run calls ⟨Heap.start data, []⟩ = some state ∧ state.Sound data := by
  have hstart : State.Tracked data ⟨Heap.start data, []⟩ := tracked_start data
  obtain ⟨state, hrun, htracked⟩ := tracked_run hcalls hstart
  exact ⟨state, hrun, htracked.sound⟩

def bump : Malloc where
  address used := used.max?.getD 0 + 1
  stays _ _ := false
  fresh used hmem := by
    have hle := List.le_max?_getD_of_mem (k := 0) hmem
    omega

theorem owned_strings_tracked_concat :
    ∃ state, run [(bump, .input), (bump, .strConcat), (bump, .free 8)] ⟨Heap.start [7], []⟩ =
      some state ∧ state.Sound [7] :=
  owned_strings_tracked [7] _ (by simp [Call.HandsOver])

/-- A text that was read from a child is not on the list, and `free` leaves its block. -/
theorem child_text_untracked :
    ¬ (∀ (data : List Addr) (calls : List (Malloc × Call)),
      ∃ state, run calls ⟨Heap.start data, []⟩ = some state ∧ state.Sound data) := by
  intro hall
  obtain ⟨state, hrun, hsound⟩ := hall [] [(bump, .ipcStdoutRead true 1 true)]
  have hstate : state = ⟨{ Heap.start [] with used := [1] }, [1]⟩ := (Option.some.inj hrun).symm
  subst hstate
  obtain ⟨node, heap, cells, hfreed, -, hgone, -⟩ :=
    hsound.freesOwned 1 (List.mem_singleton_self _)
  have hkept : freeStr 1 { Heap.start [] with used := [1] } =
      some { Heap.start [] with used := [1] } := rfl
  rw [hkept] at hfreed
  cases hfreed
  exact hgone (List.mem_singleton_self _)

end Strings

end Cnegative
