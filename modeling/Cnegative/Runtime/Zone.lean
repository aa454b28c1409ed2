import Cnegative.Library.Heap

namespace Cnegative

namespace Zone

open Library

/-! The zones of the runtime: a header with a list of nodes, each with a payload. -/

abbrev Ptr := Option Nat

/-- What the runtime keeps in a block; a payload belongs to the program. -/
inductive Cell where
  | payload
  | header (head : Ptr)
  | node (next value : Ptr)
  deriving DecidableEq, Repr

abbrev Memory := Library.Heap Cell

def Cell.head? : Cell → Option Ptr
  | .header head => some head
  | _ => none

def Cell.node? : Cell → Option (Ptr × Ptr)
  | .node next value => some (next, value)
  | _ => none

/-- `cn_zone_enter`; `zone` is the answer of `malloc`. -/
def zoneEnter (zone : Ptr) (memory : Memory) : Option (Ptr × Memory) :=
  match zone with
  | none => some (none, memory)
  | some header =>
      ((memory.give 8 .payload zone).store header (.header none)).map fun memory => (zone, memory)

/-- `cn_zone_alloc`; `node` and `payload` are the answers of `malloc`. -/
def zoneAlloc (zone : Ptr) (size : Nat) (node payload : Ptr) (memory : Memory) :
    Option (Ptr × Memory) :=
  match zone with
  | none => some (none, memory)
  | some zone =>
      let memory := (memory.give 16 .payload node).give size .payload payload
      match node, payload with
      | some node, some payload => do
          let head ← (memory.load zone).bind Cell.head?
          let memory ← memory.store node (.node head (some payload))
          let memory ← memory.store zone (.header (some node))
          return (some payload, memory)
      | some node, none => (memory.free node).map fun memory => (none, memory)
      | none, some payload => (memory.free payload).map fun memory => (none, memory)
      | none, none => some (none, memory)

/-- `free`, which takes the null pointer as well. -/
def freePtr (ptr : Ptr) (memory : Memory) : Option Memory :=
  match ptr with
  | none => some memory
  | some address => memory.free address

/-- `loop` of `cn_zone_release`; `none` is also a loop that has not ended after so many turns. -/
def releaseNodes : Nat → Ptr → Memory → Option Memory
  | 0, _, _ => none
  | _ + 1, none, memory => some memory
  | turns + 1, some curr, memory => do
      let (next, payload) ← (memory.load curr).bind Cell.node?
      let memory ← freePtr payload memory
      let memory ← memory.free curr
      releaseNodes turns next memory

/-- `cn_zone_release`. -/
def zoneRelease (zone : Ptr) (memory : Memory) : Option Memory :=
  match zone with
  | none => some memory
  | some zone => do
      let head ← (memory.load zone).bind Cell.head?
      let memory ← releaseNodes (memory.made + 1) head memory
      memory.free zone

/-! Runs of a program on any number of zones. -/

inductive Op where
  | enter (zone : Ptr)
  | alloc (zone : Ptr) (size : Nat) (node payload : Ptr)
  | release (zone : Ptr)

/-- The pointer that is returned, and the memory. -/
def step (memory : Memory) : Op → Option (Ptr × Memory)
  | .enter zone => zoneEnter zone memory
  | .alloc zone size node payload => zoneAlloc zone size node payload memory
  | .release zone => (zoneRelease zone memory).map fun memory => (none, memory)

/-- The zones that are not released: to each header, what was obtained for it, a node with its
payload, the newest first. -/
abbrev Zones := Nat → Option (List (Nat × Nat))

def Zones.after (zones : Zones) : Op → Zones
  | .enter (some zone) => Function.update zones zone (some [])
  | .alloc (some zone) _ (some node) (some payload) =>
      Function.update zones zone ((zones zone).map ((node, payload) :: ·))
  | .release (some zone) => Function.update zones zone none
  | _ => zones

/-- No zone is used after its release, and the allocator gives ranges that are free. -/
def Lawful (memory : Memory) (zones : Zones) : Op → Prop
  | .enter zone => memory.Given 8 zone
  | .alloc zone size node payload =>
      ∀ header, zone = some header → (zones header).isSome ∧ memory.Given 16 node ∧
        (memory.give 16 .payload node).Given size payload
  | .release zone => ∀ header, zone = some header → (zones header).isSome

/-- What a program can reach that starts with some blocks of its own. -/
inductive Reachable (base : Memory) : Memory → Zones → Prop
  | start : Reachable base base fun _ => none
  | step {memory after : Memory} {zones : Zones} {op : Op} {result : Ptr}
      (hreachable : Reachable base memory zones) (hlawful : Lawful memory zones op)
      (hstep : Zone.step memory op = some (result, after)) :
      Reachable base after (zones.after op)

/-! What the blocks are. -/

def blockAddresses (blocks : List (Nat × Nat)) : List Nat :=
  blocks.flatMap fun block => [block.2, block.1]

/-- In the order in which a release frees them. -/
def addresses (header : Nat) (blocks : List (Nat × Nat)) : List Nat :=
  blockAddresses blocks ++ [header]

/-- The nodes from a pointer on, to the null pointer. -/
def ChainAt (memory : Memory) : Ptr → List (Nat × Nat) → Prop
  | start, [] => start = none
  | start, (node, payload) :: rest =>
      start = some node ∧ (memory.block payload).map HeapBlock.content = some .payload ∧
        ∃ next, (memory.block node).map HeapBlock.content = some (.node next (some payload)) ∧
          ChainAt memory next rest

structure ZoneAt (memory : Memory) (header : Nat) (blocks : List (Nat × Nat)) : Prop where
  chain : ∃ head, (memory.block header).map HeapBlock.content = some (.header head) ∧
    ChainAt memory head blocks
  nodup : (addresses header blocks).Nodup
  length_le : blocks.length ≤ memory.made

/-- The live blocks are those of the program and those of the zones, and all are apart. -/
structure Holds (base memory : Memory) (zones : Zones) : Prop where
  zone : ∀ header blocks, zones header = some blocks → ZoneAt memory header blocks
  own : ∀ header header' blocks blocks' address, zones header = some blocks →
    zones header' = some blocks' → address ∈ addresses header blocks →
      address ∈ addresses header' blocks' → header = header'
  outside : ∀ header blocks address, zones header = some blocks →
    address ∈ addresses header blocks → base.block address = none
  rest : ∀ address, (∀ header blocks, zones header = some blocks →
    address ∉ addresses header blocks) → memory.block address = base.block address
  apart : memory.Apart

/-- What an operation does to the memory, and what it frees. -/
def Exact (memory : Memory) (zones : Zones) (result : Ptr) (after : Memory) : Op → Prop
  | .enter zone => result = zone ∧ after.freed = memory.freed ∧
      (zone = none → after.block = memory.block) ∧
        ∀ address, memory.block address ≠ none → after.block address = memory.block address
  | .alloc zone size node payload =>
      (result = none ↔ zone = none ∨ node = none ∨ payload = none) ∧
        (result = none → after.block = memory.block) ∧
        ∀ address, result = some address → payload = some address ∧
          memory.block address = none ∧ after.block address = some ⟨size, .payload⟩ ∧
          after.freed = memory.freed ∧ ∀ other, zone ≠ some other →
            memory.block other ≠ none → after.block other = memory.block other
  | .release zone => (zone = none → after = memory) ∧
      ∀ header blocks, zone = some header → zones header = some blocks →
      after.freed = memory.freed ++ addresses header blocks ∧ (addresses header blocks).Nodup ∧
        ∀ address, after.block address =
          if address ∈ addresses header blocks then none else memory.block address

/-- What an allocation for which both blocks were obtained makes of the memory. -/
structure Links (memory after : Memory) (header size : Nat) (head : Ptr) (node payload : Nat) :
    Prop where
  atHeader : (after.block header).map HeapBlock.content = some (.header (some node))
  atNode : (after.block node).map HeapBlock.content = some (.node head (some payload))
  atPayload : after.block payload = some ⟨size, .payload⟩
  elsewhere : ∀ address, address ≠ header → address ≠ node → address ≠ payload →
    after.block address = memory.block address
  made : after.made = memory.made + 2
  freed : after.freed = memory.freed
  apart : after.Apart

/-! The blocks of a zone. -/

section

variable {memory after : Memory} {start : Ptr} {blocks : List (Nat × Nat)} {header : Nat}

theorem mem_addresses {address : Nat} :
    address ∈ addresses header blocks ↔ address ∈ blockAddresses blocks ∨ address = header := by
  rw [addresses, List.mem_append, List.mem_singleton]

theorem blockAddresses_cons (node payload : Nat) (rest : List (Nat × Nat)) :
    blockAddresses ((node, payload) :: rest) = payload :: node :: blockAddresses rest := rfl

theorem mem_addresses_cons {address node payload : Nat} :
    address ∈ addresses header ((node, payload) :: blocks) ↔
      address = payload ∨ address = node ∨ address ∈ addresses header blocks := by
  rw [addresses, blockAddresses_cons, List.cons_append, List.cons_append, List.mem_cons,
    List.mem_cons, addresses]

theorem ChainAt.frame (hsame : ∀ address ∈ blockAddresses blocks,
      after.block address = memory.block address) (hchain : ChainAt memory start blocks) :
    ChainAt after start blocks := by
  induction blocks generalizing start with
  | nil => exact hchain
  | cons block rest ih =>
      obtain ⟨node, payload⟩ := block
      rw [blockAddresses_cons] at hsame
      obtain ⟨hstart, hpayload, next, hnode, hrest⟩ := hchain
      refine ⟨hstart, ?_, next, ?_, ih (fun address hmem => hsame address (by simp [hmem])) hrest⟩
      · rwa [hsame payload (by simp)]
      · rwa [hsame node (by simp)]

theorem ChainAt.live (hchain : ChainAt memory start blocks) {address : Nat}
    (hmem : address ∈ blockAddresses blocks) : memory.block address ≠ none := by
  induction blocks generalizing start with
  | nil => cases hmem
  | cons block rest ih =>
      obtain ⟨node, payload⟩ := block
      obtain ⟨-, hpayload, next, hnode, hrest⟩ := hchain
      rw [blockAddresses_cons, List.mem_cons, List.mem_cons] at hmem
      obtain rfl | rfl | hmem := hmem
      · intro hnone
        rw [hnone] at hpayload
        cases hpayload
      · intro hnone
        rw [hnone] at hnode
        cases hnode
      · exact ih hrest hmem

theorem ZoneAt.frame (hsame : ∀ address ∈ addresses header blocks,
      after.block address = memory.block address) (hmade : memory.made ≤ after.made)
    (hzone : ZoneAt memory header blocks) : ZoneAt after header blocks where
  chain := by
    obtain ⟨head, hheader, hchain⟩ := hzone.chain
    refine ⟨head, ?_, hchain.frame fun address hmem => hsame address (mem_addresses.mpr (.inl hmem))⟩
    rwa [hsame header (mem_addresses.mpr (.inr rfl))]
  nodup := hzone.nodup
  length_le := hzone.length_le.trans hmade

theorem ZoneAt.live (hzone : ZoneAt memory header blocks) {address : Nat}
    (hmem : address ∈ addresses header blocks) : memory.block address ≠ none := by
  obtain ⟨head, hheader, hchain⟩ := hzone.chain
  obtain hmem | rfl := mem_addresses.mp hmem
  · exact hchain.live hmem
  · intro hnone
    rw [hnone] at hheader
    cases hheader

/-- The loop frees each payload with its node, and reads a node before that only. -/
theorem releaseNodes_spec {turns : Nat} (hchain : ChainAt memory start blocks)
    (hnodup : (blockAddresses blocks).Nodup) (hturns : blocks.length < turns) :
    ∃ after, releaseNodes turns start memory = some after ∧
      after.freed = memory.freed ++ blockAddresses blocks ∧ after.made = memory.made ∧
      ∀ address, after.block address =
        if address ∈ blockAddresses blocks then none else memory.block address := by
  induction blocks generalizing start memory turns with
  | nil =>
      obtain rfl : start = none := hchain
      cases turns with
      | zero => cases hturns
      | succ turns =>
          refine ⟨memory, rfl, (List.append_nil _).symm, rfl, fun _ => ?_⟩
          rw [if_neg (by simp [blockAddresses])]
  | cons block rest ih =>
      obtain ⟨node, payload⟩ := block
      obtain ⟨rfl, hpayload, next, hnode, hrest⟩ := hchain
      rw [blockAddresses_cons, List.nodup_cons, List.nodup_cons] at hnodup
      obtain ⟨hpayloadFresh, hnodeFresh, hrestNodup⟩ := hnodup
      rw [List.mem_cons, not_or] at hpayloadFresh
      cases turns with
      | zero => cases hturns
      | succ turns =>
          obtain ⟨payloadBlock, hpayloadLive, -⟩ := Option.map_eq_some_iff.mp hpayload
          obtain ⟨nodeBlock, hnodeLive, -⟩ := Option.map_eq_some_iff.mp hnode
          have hload : (memory.load node).bind Cell.node? = some (next, some payload) := by
            rw [Heap.load, hnode]
            rfl
          obtain ⟨middle, hfreePayload, hmiddleBlock, hmiddleMade, hmiddleFreed⟩ :=
            Heap.free_spec hpayloadLive
          have hmiddleLive : middle.block node = some nodeBlock := by
            rw [hmiddleBlock, Function.update_of_ne (Ne.symm hpayloadFresh.1)]
            exact hnodeLive
          obtain ⟨last, hfreeNode, hlast, hlastMade, hlastFreed⟩ := Heap.free_spec hmiddleLive
          have hlastBlock : ∀ address, last.block address =
              if address = payload ∨ address = node then none else memory.block address := by
            intro address
            rw [hlast, hmiddleBlock]
            by_cases hnodeEq : address = node
            · rw [hnodeEq, Function.update_self, if_pos (Or.inr rfl)]
            · rw [Function.update_of_ne hnodeEq]
              by_cases hpayloadEq : address = payload
              · rw [hpayloadEq, Function.update_self, if_pos (Or.inl rfl)]
              · rw [Function.update_of_ne hpayloadEq, if_neg (by simp [hpayloadEq, hnodeEq])]
          have hlastChain : ChainAt last next rest := by
            refine hrest.frame fun address hmem => ?_
            rw [hlastBlock, if_neg]
            rintro (rfl | rfl)
            · exact hpayloadFresh.2 hmem
            · exact hnodeFresh hmem
          obtain ⟨after, hloop, hfreed, hmade, hblock⟩ :=
            ih hlastChain hrestNodup (Nat.lt_of_succ_lt_succ hturns)
          refine ⟨after, ?_, ?_, ?_, fun address => ?_⟩
          · simp only [releaseNodes, hload, Option.bind_eq_bind, Option.bind_some, freePtr,
              hfreePayload, hfreeNode]
            exact hloop
          · rw [hfreed, hlastFreed, hmiddleFreed, blockAddresses_cons]
            simp
          · rw [hmade, hlastMade, hmiddleMade]
          · rw [hblock, hlastBlock, blockAddresses_cons]
            by_cases hmem : address ∈ blockAddresses rest
            · rw [if_pos hmem, if_pos (by simp [hmem])]
            · rw [if_neg hmem]
              exact if_congr (by simp [hmem]) rfl rfl

end

/-! The three operations. -/

section

variable {base memory : Memory} {zones : Zones} {header size : Nat} {blocks : List (Nat × Nat)}

theorem Holds.live (hholds : Holds base memory zones) (hzone : zones header = some blocks)
    {address : Nat} (hmem : address ∈ addresses header blocks) : memory.block address ≠ none :=
  (hholds.zone header blocks hzone).live hmem

/-- An address that is not live belongs to no zone and not to the program. -/
theorem Holds.fresh (hholds : Holds base memory zones) {address : Nat}
    (hnone : memory.block address = none) :
    (∀ header blocks, zones header = some blocks → address ∉ addresses header blocks) ∧
      base.block address = none := by
  have hout : ∀ header blocks, zones header = some blocks → address ∉ addresses header blocks :=
    fun header blocks hzone hmem => hholds.live hzone hmem hnone
  exact ⟨hout, hholds.rest address hout ▸ hnone⟩

/-- Beside the blocks of one zone and those of the others there are those of the program. -/
theorem Holds.rest_beside (hholds : Holds base memory zones) {address : Nat}
    (hself : ∀ list, zones header = some list → address ∉ addresses header list)
    (hothers : ∀ other list, other ≠ header → zones other = some list →
      address ∉ addresses other list) : memory.block address = base.block address := by
  refine hholds.rest address fun other list hzone => ?_
  by_cases hsame : other = header
  · subst hsame
    exact hself list hzone
  · exact hothers other list hsame hzone

/-- One zone gets other blocks, the others stay as they are. -/
theorem Holds.update (hholds : Holds base memory zones) {after : Memory}
    (blocks' : Option (List (Nat × Nat)))
    (hzone : ∀ list, blocks' = some list → ZoneAt after header list)
    (hothers : ∀ other list, other ≠ header → zones other = some list →
      ZoneAt after other list)
    (hown : ∀ list address, blocks' = some list → address ∈ addresses header list →
      base.block address = none ∧ ∀ other list', other ≠ header → zones other = some list' →
        address ∉ addresses other list')
    (hrest : ∀ address, (∀ list, blocks' = some list → address ∉ addresses header list) →
      (∀ other list, other ≠ header → zones other = some list → address ∉ addresses other list) →
        after.block address = base.block address)
    (hapart : after.Apart) : Holds base after (Function.update zones header blocks') where
  zone other list hother := by
    by_cases hsame : other = header
    · subst hsame
      rw [Function.update_self] at hother
      exact hzone list hother
    · rw [Function.update_of_ne hsame] at hother
      exact hothers other list hsame hother
  own first second list list' address hfirst hsecond hmem hmem' := by
    by_cases hfirstSame : first = header
    · subst hfirstSame
      rw [Function.update_self] at hfirst
      by_contra hne
      rw [Function.update_of_ne (Ne.symm hne)] at hsecond
      exact (hown list address hfirst hmem).2 second list' (Ne.symm hne) hsecond hmem'
    · rw [Function.update_of_ne hfirstSame] at hfirst
      by_cases hsecondSame : second = header
      · subst hsecondSame
        rw [Function.update_self] at hsecond
        exact absurd hmem ((hown list' address hsecond hmem').2 first list hfirstSame hfirst)
      · rw [Function.update_of_ne hsecondSame] at hsecond
        exact hholds.own first second list list' address hfirst hsecond hmem hmem'
  outside other list address hother hmem := by
    by_cases hsame : other = header
    · subst hsame
      rw [Function.update_self] at hother
      exact (hown list address hother hmem).1
    · rw [Function.update_of_ne hsame] at hother
      exact hholds.outside other list address hother hmem
  rest address hout := by
    refine hrest address (fun list hlist => ?_) fun other list hne hother => ?_
    · exact hout header list (by rw [Function.update_self, hlist])
    · exact hout other list (by rw [Function.update_of_ne hne, hother])
  apart := hapart

theorem enter_spec (hholds : Holds base memory zones) (zone : Ptr)
    (hgiven : memory.Given 8 zone) :
    ∃ result after, step memory (.enter zone) = some (result, after) ∧
      Exact memory zones result after (.enter zone) ∧
        Holds base after (zones.after (.enter zone)) := by
  cases zone with
  | none => exact ⟨none, memory, rfl, ⟨rfl, rfl, fun _ => rfl, fun _ _ => rfl⟩, hholds⟩
  | some header =>
      have hnone := (hgiven header rfl).1
      obtain ⟨hout, hbase⟩ := hholds.fresh hnone
      obtain ⟨after, hstore, hblock, hmade, hfreed⟩ :=
        Heap.store_spec (Heap.give_same memory 8 .payload header) (.header none)
      have hother : ∀ address, address ≠ header → after.block address = memory.block address := by
        intro address hne
        rw [hblock, Function.update_of_ne hne, Heap.give_other _ _ _ hne]
      have hmade : memory.made ≤ after.made := by
        rw [hmade]
        exact memory.give_made 8 .payload (some header)
      refine ⟨some header, after, by simp only [step, zoneEnter, hstore, Option.map_some],
        ⟨rfl, hfreed.trans (memory.give_freed 8 .payload (some header)),
          fun hnone => (by cases hnone), fun address hlive => hother address ?_⟩, ?_⟩
      · rintro rfl
        exact hlive hnone
      refine hholds.update (some []) (fun list hlist => ?_) (fun other list hne hzone => ?_)
        (fun list address hlist hmem => ?_) (fun address hself hothers => ?_) ?_
      · obtain rfl := Option.some.inj hlist
        refine ⟨⟨none, ?_, rfl⟩, by simp [addresses, blockAddresses], Nat.zero_le _⟩
        rw [hblock, Function.update_self]
        rfl
      · refine (hholds.zone other list hzone).frame (fun address hmem => hother address ?_) hmade
        rintro rfl
        exact hout other list hzone hmem
      · obtain rfl := Option.some.inj hlist
        obtain hmem | rfl := mem_addresses.mp hmem
        · cases hmem
        · exact ⟨hbase, fun other list' _ hzone => hout other list' hzone⟩
      · have hne : address ≠ header := by
          rintro rfl
          exact hself [] rfl (mem_addresses.mpr (.inr rfl))
        rw [hother address hne]
        refine hholds.rest_beside (fun list hzone => ?_) hothers
        exact absurd (mem_addresses.mpr (.inr rfl)) (hout header list hzone)
      · exact (hholds.apart.give hgiven .payload).store hstore

theorem release_spec (hholds : Holds base memory zones) (zone : Ptr)
    (hlawful : Lawful memory zones (.release zone)) :
    ∃ result after, step memory (.release zone) = some (result, after) ∧
      Exact memory zones result after (.release zone) ∧
        Holds base after (zones.after (.release zone)) := by
  cases zone with
  | none =>
      exact ⟨none, memory, rfl, ⟨fun _ => rfl, fun header _ hzone => by cases hzone⟩, hholds⟩
  | some header =>
      obtain ⟨blocks, hblocks⟩ := Option.isSome_iff_exists.mp (hlawful header rfl)
      obtain ⟨⟨head, hheader, hchain⟩, hnodup, hlength⟩ := hholds.zone header blocks hblocks
      obtain ⟨hblocksNodup, -, hheaderFresh⟩ := List.nodup_append.mp hnodup
      have hheaderOut : header ∉ blockAddresses blocks := fun hmem =>
        hheaderFresh header hmem header (List.mem_singleton_self _) rfl
      obtain ⟨middle, hloop, hfreed, hmade, hblock⟩ :=
        releaseNodes_spec hchain hblocksNodup (Nat.lt_succ_of_le hlength)
      obtain ⟨headerBlock, hheaderLive, -⟩ := Option.map_eq_some_iff.mp hheader
      have hmiddleLive : middle.block header = some headerBlock := by
        rw [hblock, if_neg hheaderOut]
        exact hheaderLive
      obtain ⟨after, hfree, hafter, hafterMade, hafterFreed⟩ := Heap.free_spec hmiddleLive
      have hafterBlock : ∀ address, after.block address =
          if address ∈ addresses header blocks then none else memory.block address := by
        intro address
        rw [hafter]
        by_cases hsame : address = header
        · rw [hsame, Function.update_self, if_pos (mem_addresses.mpr (.inr rfl))]
        · rw [Function.update_of_ne hsame, hblock]
          exact if_congr (by rw [mem_addresses, or_iff_left hsame]) rfl rfl
      have hload : (memory.load header).bind Cell.head? = some head := by
        rw [Heap.load, hheader]
        rfl
      refine ⟨none, after, ?_, ⟨fun hnone => (by cases hnone),
        fun other list hother hlist => ?_⟩, ?_⟩
      · simp only [step, zoneRelease, hload, Option.bind_eq_bind, Option.bind_some, hloop, hfree,
          Option.map_some]
      · obtain rfl := Option.some.inj hother
        rw [hblocks] at hlist
        obtain rfl := Option.some.inj hlist
        refine ⟨?_, hnodup, hafterBlock⟩
        rw [hafterFreed, hfreed, addresses, ← List.append_assoc]
      · have hafterMade : memory.made ≤ after.made := by
          rw [hafterMade, hmade]
        refine hholds.update none (fun list hlist => by cases hlist)
          (fun other list hne hzone => ?_) (fun list address hlist => by cases hlist)
          (fun address _ hothers => ?_) ?_
        · refine (hholds.zone other list hzone).frame (fun address hmem => ?_) hafterMade
          rw [hafterBlock, if_neg]
          exact fun hmem' => hne (hholds.own other header list blocks address hzone hblocks hmem hmem')
        · rw [hafterBlock]
          by_cases hmem : address ∈ addresses header blocks
          · rw [if_pos hmem, hholds.outside header blocks address hblocks hmem]
          · rw [if_neg hmem]
            refine hholds.rest_beside (fun list hzone => ?_) hothers
            rw [hblocks] at hzone
            obtain rfl := Option.some.inj hzone
            exact hmem
        · refine hholds.apart.of_some fun address block hlive => ?_
          rw [hafterBlock] at hlive
          split at hlive
          · cases hlive
          · exact hlive

/-- The two blocks that were obtained are new ones, and not the same. -/
theorem given_fresh {node payload : Nat} (hnode : memory.Given 16 (some node))
    (hpayload : (memory.give 16 .payload (some node)).Given size (some payload)) :
    memory.block node = none ∧ memory.block payload = none ∧ payload ≠ node := by
  have hpayloadNode : payload ≠ node := by
    rintro rfl
    have hlive := (hpayload payload rfl).1
    rw [Heap.give_same] at hlive
    cases hlive
  refine ⟨(hnode node rfl).1, ?_, hpayloadNode⟩
  rw [← Heap.give_other memory 16 .payload hpayloadNode]
  exact (hpayload payload rfl).1

theorem zoneAlloc_links (hapart : memory.Apart) {head : Ptr} {node payload : Nat}
    (hheader : (memory.block header).map HeapBlock.content = some (.header head))
    (hnode : memory.Given 16 (some node))
    (hpayload : (memory.give 16 .payload (some node)).Given size (some payload)) :
    ∃ after, zoneAlloc (some header) size (some node) (some payload) memory =
        some (some payload, after) ∧ Links memory after header size head node payload := by
  obtain ⟨hnodeNone, hpayloadNone, hpayloadNode⟩ := given_fresh hnode hpayload
  obtain ⟨headerBlock, hheaderLive, -⟩ := Option.map_eq_some_iff.mp hheader
  have hheaderNode : header ≠ node := by
    rintro rfl
    exact absurd (hheaderLive.symm.trans hnodeNone) (by simp)
  have hheaderPayload : header ≠ payload := by
    rintro rfl
    exact absurd (hheaderLive.symm.trans hpayloadNone) (by simp)
  generalize hgiven : (memory.give 16 .payload (some node)).give size .payload (some payload) =
    given
  have hgivenBlock : ∀ address, address ≠ node → address ≠ payload →
      given.block address = memory.block address := by
    intro address hne hne'
    rw [← hgiven, Heap.give_other _ _ _ hne', Heap.give_other _ _ _ hne]
  have hgivenNode : given.block node = some ⟨16, .payload⟩ := by
    rw [← hgiven, Heap.give_other _ _ _ hpayloadNode.symm, Heap.give_same]
  have hgivenPayload : given.block payload = some ⟨size, .payload⟩ := by
    rw [← hgiven, Heap.give_same]
  have hgivenHeader : given.block header = some headerBlock :=
    (hgivenBlock header hheaderNode hheaderPayload).trans hheaderLive
  have hgivenApart : given.Apart := by
    rw [← hgiven]
    exact (hapart.give hnode .payload).give hpayload .payload
  have hload : (given.load header).bind Cell.head? = some head := by
    rw [Heap.load, hgivenBlock header hheaderNode hheaderPayload, hheader]
    rfl
  obtain ⟨linked, hstoreNode, hlinked, hlinkedMade, hlinkedFreed⟩ :=
    Heap.store_spec hgivenNode (.node head (some payload))
  have hlinkedHeader : linked.block header = some headerBlock := by
    rw [hlinked, Function.update_of_ne hheaderNode, hgivenHeader]
  obtain ⟨after, hstoreHeader, hafter, hafterMade, hafterFreed⟩ :=
    Heap.store_spec hlinkedHeader (.header (some node))
  refine ⟨after, ?_, ?_, ?_, ?_, fun address hne hne' hne'' => ?_, ?_, ?_, ?_⟩
  · simp only [zoneAlloc, hgiven, hload, hstoreNode, hstoreHeader, Option.bind_eq_bind,
      Option.bind_some, Option.pure_def]
  · rw [hafter, Function.update_self]
    rfl
  · rw [hafter, Function.update_of_ne hheaderNode.symm, hlinked, Function.update_self]
    rfl
  · rw [hafter, Function.update_of_ne hheaderPayload.symm, hlinked,
      Function.update_of_ne hpayloadNode, hgivenPayload]
  · rw [hafter, Function.update_of_ne hne, hlinked, Function.update_of_ne hne',
      hgivenBlock address hne' hne'']
  · rw [hafterMade, hlinkedMade, ← hgiven]
    rfl
  · rw [hafterFreed, hlinkedFreed, ← hgiven]
    rfl
  · exact (hgivenApart.store hstoreNode).store hstoreHeader

/-- The node and the payload come in front of the blocks of the zone. -/
theorem ZoneAt.links {after : Memory} {head : Ptr} {node payload : Nat}
    (hzone : ZoneAt memory header blocks)
    (hhead : (memory.block header).map HeapBlock.content = some (.header head))
    (hlinks : Links memory after header size head node payload)
    (hnode : node ∉ addresses header blocks) (hpayload : payload ∉ addresses header blocks)
    (hne : payload ≠ node) :
    ZoneAt after header ((node, payload) :: blocks) := by
  obtain ⟨⟨head', hheader, hchain⟩, hnodup, hlength⟩ := hzone
  obtain rfl : head' = head := by simpa using hheader.symm.trans hhead
  have hblocksOther : ∀ address ∈ blockAddresses blocks,
      after.block address = memory.block address := by
    intro address hmem
    refine hlinks.elsewhere address ?_ ?_ ?_
    · rintro rfl
      exact (List.nodup_append.mp hnodup).2.2 _ hmem _ (List.mem_singleton_self _) rfl
    · rintro rfl
      exact hnode (mem_addresses.mpr (.inl hmem))
    · rintro rfl
      exact hpayload (mem_addresses.mpr (.inl hmem))
  refine ⟨⟨some node, hlinks.atHeader, rfl, by rw [hlinks.atPayload]; rfl, _, hlinks.atNode,
    hchain.frame hblocksOther⟩, ?_, ?_⟩
  · rw [addresses, blockAddresses_cons, List.cons_append, List.cons_append, List.nodup_cons,
      List.nodup_cons]
    refine ⟨?_, hnode, hnodup⟩
    rw [List.mem_cons, not_or]
    exact ⟨hne, hpayload⟩
  · rw [List.length_cons, hlinks.made]
    omega

/-- Both blocks were obtained: they are linked in front. -/
theorem alloc_both (hholds : Holds base memory zones) (hblocks : zones header = some blocks)
    {node payload : Nat} (hnode : memory.Given 16 (some node))
    (hpayload : (memory.give 16 .payload (some node)).Given size (some payload)) :
    ∃ result after, step memory (.alloc (some header) size (some node) (some payload)) =
        some (result, after) ∧
      Exact memory zones result after (.alloc (some header) size (some node) (some payload)) ∧
        Holds base after
          (Function.update zones header (some ((node, payload) :: blocks))) := by
  obtain ⟨hnodeNone, hpayloadNone, hpayloadNode⟩ := given_fresh hnode hpayload
  obtain ⟨hnodeOut, hnodeBase⟩ := hholds.fresh hnodeNone
  obtain ⟨hpayloadOut, hpayloadBase⟩ := hholds.fresh hpayloadNone
  have hzoneAt := hholds.zone header blocks hblocks
  obtain ⟨head, hheader, -⟩ := hzoneAt.chain
  obtain ⟨after, hrun, hlinks⟩ := zoneAlloc_links hholds.apart hheader hnode hpayload
  refine ⟨some payload, after, hrun, ⟨by simp, fun hnone => (by cases hnone), ?_⟩, ?_⟩
  · rintro address ⟨rfl⟩
    refine ⟨rfl, hpayloadNone, hlinks.atPayload, hlinks.freed, fun other hzone hlive => ?_⟩
    refine hlinks.elsewhere other (fun heq => hzone (congrArg some heq.symm)) ?_ ?_
    · rintro rfl
      exact hlive hnodeNone
    · rintro rfl
      exact hlive hpayloadNone
  refine hholds.update _ (fun list hlist => ?_) (fun other list hne hzone => ?_)
    (fun list address hlist hmem => ?_) (fun address hself hothers => ?_) hlinks.apart
  · obtain rfl := Option.some.inj hlist
    exact hzoneAt.links hheader hlinks (hnodeOut header blocks hblocks)
      (hpayloadOut header blocks hblocks) hpayloadNode
  · have hmade := hlinks.made
    refine (hholds.zone other list hzone).frame (fun address hmem => ?_) (by omega)
    refine hlinks.elsewhere address ?_ ?_ ?_
    · rintro rfl
      exact hne (hholds.own other address list blocks address hzone hblocks hmem
        (mem_addresses.mpr (.inr rfl)))
    · rintro rfl
      exact hnodeOut other list hzone hmem
    · rintro rfl
      exact hpayloadOut other list hzone hmem
  · obtain rfl := Option.some.inj hlist
    obtain rfl | rfl | hmem := mem_addresses_cons.mp hmem
    · exact ⟨hpayloadBase, fun other list' _ hzone => hpayloadOut other list' hzone⟩
    · exact ⟨hnodeBase, fun other list' _ hzone => hnodeOut other list' hzone⟩
    · exact ⟨hholds.outside header blocks address hblocks hmem, fun other list' hne hzone hmem' =>
        hne (hholds.own other header list' blocks address hzone hblocks hmem' hmem)⟩
  · have hself' := hself _ rfl
    rw [mem_addresses_cons, not_or, not_or] at hself'
    rw [hlinks.elsewhere address (fun heq => hself'.2.2 (mem_addresses.mpr (.inr heq))) hself'.2.1
      hself'.1]
    refine hholds.rest_beside (fun list hzone => ?_) hothers
    rw [hblocks] at hzone
    obtain rfl := Option.some.inj hzone
    exact hself'.2.2

/-- An attempt that leaves no block behind. -/
theorem Holds.of_block (hholds : Holds base memory zones) {after : Memory}
    (hblock : after.block = memory.block) (hmade : memory.made ≤ after.made) :
    Holds base after zones where
  zone header blocks hzone :=
    (hholds.zone header blocks hzone).frame (fun address _ => by rw [hblock]) hmade
  own := hholds.own
  outside := hholds.outside
  rest address hout := by rw [hblock, hholds.rest address hout]
  apart := hholds.apart.of_some fun address block hlive => by rwa [hblock] at hlive

theorem alloc_none (zone node payload : Ptr)
    (hlawful : Lawful memory zones (.alloc zone size node payload))
    (hnone : zone = none ∨ node = none ∨ payload = none) :
    ∃ after, step memory (.alloc zone size node payload) = some (none, after) ∧
      after.block = memory.block ∧ memory.made ≤ after.made := by
  cases zone with
  | none => exact ⟨memory, rfl, rfl, Nat.le_refl _⟩
  | some header =>
      obtain ⟨-, hnode, hpayload⟩ := hlawful header rfl
      cases node with
      | none =>
          rw [Heap.give_none] at hpayload
          cases payload with
          | none => exact ⟨memory, rfl, rfl, Nat.le_refl _⟩
          | some payload =>
              obtain ⟨after, hfree, hblock, hmade⟩ :=
                memory.give_free size .payload (hpayload payload rfl).1
              refine ⟨after, ?_, hblock, by omega⟩
              simp only [step, zoneAlloc, Heap.give_none, hfree, Option.map_some]
      | some node =>
          cases payload with
          | none =>
              obtain ⟨after, hfree, hblock, hmade⟩ :=
                memory.give_free 16 .payload (hnode node rfl).1
              refine ⟨after, ?_, hblock, by omega⟩
              simp only [step, zoneAlloc, Heap.give_none, hfree, Option.map_some]
          | some payload => obtain hnone | hnone | hnone := hnone <;> cases hnone

theorem alloc_spec (hholds : Holds base memory zones) (zone node payload : Ptr)
    (hlawful : Lawful memory zones (.alloc zone size node payload)) :
    ∃ result after, step memory (.alloc zone size node payload) = some (result, after) ∧
      Exact memory zones result after (.alloc zone size node payload) ∧
        Holds base after (zones.after (.alloc zone size node payload)) := by
  by_cases hnone : zone = none ∨ node = none ∨ payload = none
  · obtain ⟨after, hstep, hblock, hmade⟩ := alloc_none zone node payload hlawful hnone
    have hafter : zones.after (.alloc zone size node payload) = zones := by
      obtain rfl | rfl | rfl := hnone
      · rfl
      · cases zone <;> rfl
      · cases zone <;> cases node <;> rfl
    refine ⟨none, after, hstep, ⟨iff_of_true rfl hnone, fun _ => hblock,
      fun address haddress => (by cases haddress)⟩, ?_⟩
    rw [hafter]
    exact hholds.of_block hblock hmade
  · rw [not_or, not_or] at hnone
    obtain ⟨header, rfl⟩ := Option.ne_none_iff_exists'.mp hnone.1
    obtain ⟨node, rfl⟩ := Option.ne_none_iff_exists'.mp hnone.2.1
    obtain ⟨payload, rfl⟩ := Option.ne_none_iff_exists'.mp hnone.2.2
    obtain ⟨hzone, hnode, hpayload⟩ := hlawful header rfl
    obtain ⟨blocks, hblocks⟩ := Option.isSome_iff_exists.mp hzone
    have hboth := alloc_both hholds hblocks hnode hpayload
    rw [Zones.after, hblocks]
    exact hboth

theorem step_spec (hholds : Holds base memory zones) (op : Op)
    (hlawful : Lawful memory zones op) :
    ∃ result after, step memory op = some (result, after) ∧
      Exact memory zones result after op ∧ Holds base after (zones.after op) := by
  cases op with
  | enter zone => exact enter_spec hholds zone hlawful
  | alloc zone size node payload => exact alloc_spec hholds zone node payload hlawful
  | release zone => exact release_spec hholds zone hlawful

theorem Reachable.holds (hbase : base.Apart) (hreachable : Reachable base memory zones) :
    Holds base memory zones := by
  induction hreachable with
  | start =>
      exact ⟨fun _ _ hzone => (by cases hzone), fun _ _ _ _ _ hzone => (by cases hzone),
        fun _ _ _ hzone => (by cases hzone), fun _ _ => rfl, hbase⟩
  | @step memory after zones op result hreachable hlawful hstep ih =>
      obtain ⟨result', after', hstep', -, hholds⟩ := step_spec ih op hlawful
      rw [hstep] at hstep'
      obtain ⟨-, rfl⟩ := Prod.mk.inj (Option.some.inj hstep')
      exact hholds

/-- In every reachable memory each zone is a list of its own live blocks, and an operation is
total, frees what it has to and touches nothing else. -/
theorem zone_runtime_exact (hbase : base.Apart) (hreachable : Reachable base memory zones) :
    Holds base memory zones ∧ ∀ op, Lawful memory zones op →
      ∃ result after, step memory op = some (result, after) ∧
        Exact memory zones result after op := by
  have hholds := hreachable.holds hbase
  refine ⟨hholds, fun op hlawful => ?_⟩
  obtain ⟨result, after, hstep, hexact, -⟩ := step_spec hholds op hlawful
  exact ⟨result, after, hstep, hexact⟩

/-! Runs whose blocks are apart, checked on the ranges alone. -/

theorem freePtr_among (hamong : memory.Among ranges) {ptr : Ptr}
    (hfree : freePtr ptr memory = some after) : after.Among ranges := by
  cases ptr with
  | none => cases hfree; exact hamong
  | some address => exact hamong.free hfree

theorem releaseNodes_among {turns : Nat} {start : Ptr} (hamong : memory.Among ranges)
    (hrun : releaseNodes turns start memory = some after) : after.Among ranges := by
  induction turns generalizing start memory with
  | zero => cases hrun
  | succ turns ih =>
      cases start with
      | none => cases hrun; exact hamong
      | some node =>
          simp only [releaseNodes, Option.bind_eq_bind, Option.bind_eq_some_iff] at hrun
          obtain ⟨⟨next, payload⟩, -, first, hfirst, second, hsecond, hrest⟩ := hrun
          exact ih ((freePtr_among hamong hfirst).free hsecond) hrest

def Op.obtains : Op → List (Nat × Nat)
  | .enter zone => zone.toList.map (·, 8)
  | .alloc zone size node payload =>
      if zone.isSome then payload.toList.map (·, size) ++ node.toList.map (·, 16) else []
  | .release _ => []

theorem step_among (hamong : memory.Among ranges) {op : Op} {result : Ptr}
    (hstep : step memory op = some (result, after)) : after.Among (op.obtains ++ ranges) := by
  cases op with
  | enter zone =>
      cases zone with
      | none => cases hstep; exact hamong
      | some header =>
          obtain ⟨stored, hstore, heq⟩ := Option.map_eq_some_iff.mp hstep
          cases heq
          exact (hamong.give 8 .payload).store hstore
  | alloc zone size node payload =>
      cases zone with
      | none => cases hstep; exact hamong
      | some header =>
          cases node with
          | none =>
              cases payload with
              | none => cases hstep; exact hamong
              | some payload =>
                  obtain ⟨freed, hfree, heq⟩ := Option.map_eq_some_iff.mp hstep
                  cases heq
                  exact (hamong.give size .payload).free hfree
          | some node =>
              cases payload with
              | none =>
                  obtain ⟨freed, hfree, heq⟩ := Option.map_eq_some_iff.mp hstep
                  cases heq
                  exact (hamong.give 16 .payload).free hfree
              | some payload =>
                  simp only [step, zoneAlloc, Option.bind_eq_bind, Option.bind_eq_some_iff]
                    at hstep
                  obtain ⟨head, -, first, hfirst, second, hsecond, heq⟩ := hstep
                  cases heq
                  exact (((hamong.give 16 .payload).give size .payload).store hfirst).store hsecond
  | release zone =>
      obtain ⟨freed, hrelease, heq⟩ := Option.map_eq_some_iff.mp hstep
      cases heq
      cases zone with
      | none => cases hrelease; exact hamong
      | some header =>
          simp only [zoneRelease, Option.bind_eq_bind, Option.bind_eq_some_iff] at hrelease
          obtain ⟨head, -, first, hfirst, hfree⟩ := hrelease
          exact (releaseNodes_among hamong hfirst).free hfree

/-- Each range, the oldest first, is apart from those in front of it. -/
def fits : List (Nat × Nat) → List (Nat × Nat) → Bool
  | [], _ => true
  | range :: rest, ranges =>
      fits rest ranges && (rest ++ ranges).all fun other =>
        range.1 ≠ other.1 && (range.1 + range.2 ≤ other.1 || other.1 + other.2 ≤ range.1)

def Op.usable (zones : Zones) : Op → Bool
  | .enter _ => true
  | .alloc zone _ _ _ | .release zone => zone.all fun header => (zones header).isSome

def runLawful : List Op → Zones → List (Nat × Nat) → Bool
  | [], _, _ => true
  | op :: rest, zones, ranges =>
      fits op.obtains ranges && op.usable zones &&
        runLawful rest (zones.after op) (op.obtains ++ ranges)

theorem given_of_fits (hamong : memory.Among ranges) {address size : Nat}
    {rest : List (Nat × Nat)} (hfits : fits ((address, size) :: rest) ranges = true)
    (hrest : rest = []) : memory.Given size (some address) := by
  subst hrest
  refine hamong.given fun range hrange => ?_
  simp only [fits, List.nil_append, Bool.true_and, List.all_eq_true, Bool.and_eq_true,
    Bool.or_eq_true, decide_eq_true_eq] at hfits
  exact ⟨(hfits range hrange).1.symm, (hfits range hrange).2⟩

theorem lawful_of_fits (hamong : memory.Among ranges) {op : Op}
    (hfits : fits op.obtains ranges = true) (husable : op.usable zones = true) :
    Lawful memory zones op := by
  cases op with
  | enter zone =>
      cases zone with
      | none => exact fun _ hnone => (by cases hnone)
      | some header => exact given_of_fits hamong hfits rfl
  | alloc zone size node payload =>
      intro header hzone
      subst hzone
      refine ⟨husable, ?_⟩
      cases node with
      | none =>
          refine ⟨fun _ hnone => (by cases hnone), ?_⟩
          cases payload with
          | none => exact fun _ hnone => (by cases hnone)
          | some payload => exact given_of_fits hamong hfits rfl
      | some node =>
          cases payload with
          | none => exact ⟨given_of_fits hamong hfits rfl, fun _ hnone => (by cases hnone)⟩
          | some payload =>
              have hboth := Bool.and_eq_true_iff.mp hfits
              have hpayload : fits [(payload, size)] ((node, 16) :: ranges) = true := hboth.2
              exact ⟨given_of_fits hamong hboth.1 rfl,
                given_of_fits (hamong.give 16 .payload) hpayload rfl⟩
  | release zone =>
      intro header hzone
      subst hzone
      exact husable

theorem Reachable.run (hbase : base.Apart) {ops : List Op}
    (hreachable : Reachable base memory zones) (hamong : memory.Among ranges)
    (hrun : runLawful ops zones ranges = true) :
    ∃ after, Reachable base after (ops.foldl Zones.after zones) := by
  induction ops generalizing memory zones ranges with
  | nil => exact ⟨memory, hreachable⟩
  | cons op rest ih =>
      simp only [runLawful, Bool.and_eq_true] at hrun
      obtain ⟨⟨hfits, husable⟩, hrest⟩ := hrun
      have hlawful := lawful_of_fits hamong hfits husable
      obtain ⟨result, after, hstep, -⟩ := step_spec (hreachable.holds hbase) op hlawful
      exact ih (.step hreachable hlawful hstep) (step_among hamong hstep) hrest

def ownBlock : Memory where
  block address := if address = 0 then some ⟨8, .payload⟩ else none
  made := 1
  freed := []

theorem ownBlock_apart : ownBlock.Apart := by
  intro first second block block' hfirst hsecond hne
  simp only [ownBlock, Option.ite_none_right_eq_some] at hfirst hsecond
  exact absurd (hfirst.1.trans hsecond.1.symm) hne

theorem ownBlock_among : ownBlock.Among [(0, 8)] := by
  intro address block hblock
  simp only [ownBlock, Option.ite_none_right_eq_some, Option.some.injEq] at hblock
  obtain ⟨rfl, rfl⟩ := hblock
  exact List.mem_singleton_self _

/-- Two zones that are filled in turn; one payload is refused, and the second zone is released
first. -/
def twoZones : List Op := [
  .enter (some 16),
  .alloc (some 16) 4 (some 24) (some 40),
  .enter (some 48),
  .alloc (some 16) 100 (some 56) none,
  .alloc (some 48) 4 (some 72) (some 88),
  .alloc (some 16) 8 (some 96) (some 112),
  .release (some 48)]

theorem zone_runtime_exact_of_twoZones :
    ∃ memory after, Reachable ownBlock memory (twoZones.foldl Zones.after fun _ => none) ∧
      step memory (.release (some 16)) = some (none, after) ∧
      after.freed = memory.freed ++ [112, 96, 40, 24, 16] ∧
      after.block 0 = some ⟨8, .payload⟩ ∧ ∀ address ≠ 0, after.block address = none := by
  have hrun : runLawful twoZones (fun _ => none) [(0, 8)] = true := by decide
  obtain ⟨memory, hreachable⟩ := Reachable.start.run ownBlock_apart ownBlock_among hrun
  obtain ⟨hholds, hexact⟩ := zone_runtime_exact ownBlock_apart hreachable
  obtain ⟨result, after, hstep, -, hrelease⟩ := hexact (.release (some 16)) fun header hheader => by
    cases hheader
    rfl
  obtain ⟨hfreed, -, hblock⟩ := hrelease 16 [(96, 112), (24, 40)] rfl rfl
  have honly : ∀ header, header ≠ 16 →
      twoZones.foldl Zones.after (fun _ => none) header = none := by
    intro header hne
    by_cases hsecond : header = 48
    · rw [hsecond]
      rfl
    · simp [twoZones, Zones.after, hne, hsecond]
  have hown : ∀ address ∉ addresses 16 [(96, 112), (24, 40)],
      memory.block address = ownBlock.block address := by
    intro address hnot
    refine hholds.rest address fun header blocks hzone => ?_
    by_cases hheader : header = 16
    · subst hheader
      cases hzone
      exact hnot
    · rw [honly header hheader] at hzone
      cases hzone
  have hresult : result = none := by
    obtain ⟨_, -, heq⟩ := Option.map_eq_some_iff.mp hstep
    cases heq
    rfl
  refine ⟨memory, after, hreachable, hresult ▸ hstep, hfreed, ?_, fun address hne => ?_⟩
  · rw [hblock, if_neg (by decide), hown 0 (by decide)]
    rfl
  · rw [hblock]
    split
    · rfl
    · rw [hown address ‹_›]
      exact if_neg hne

end

end Zone

end Cnegative
