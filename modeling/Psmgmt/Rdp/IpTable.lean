import Psmgmt.Rdp.Protocol

/-!
# The IP table

The hash of `rdp.c` that leads from addresses to nodes.  The first entry of a
bucket is part of the table, further ones are linked to it.  Removing an entry
copies its successor; the last one is left zeroed, so that a bucket may hold
zeroed entries anywhere.

Only the addresses in the connection table matter here.  What `RDP_updateNode()`
does to the connection itself is `rdpUpdateNode`.
-/

namespace Psmgmt.Rdp

open ByteMemory List Function Option

/-- `ipentry_t` without its link. -/
structure IpEntry where
  ipAddr : Nat
  node : Nat
  deriving DecidableEq, Repr

def IpEntry.zero : IpEntry := { ipAddr := 0, node := 0 }

/-- An entry of `iptable` and those linked to it. -/
structure IpBucket where
  base : IpEntry
  next : List IpEntry
  deriving DecidableEq, Repr

/-- `ntohl()` of an address as it is in memory. -/
def ntohl (addr : Nat) : Nat := ofMem (toMem 4 addr).reverse

/-- The last octet of an address. -/
def ipHash (addr : Nat) : Nat := ntohl addr % 256

/-- `IN_LOOPBACKNET`. -/
def inLoopbackNet : Nat := 127

/-- The table and the addresses of the connection table. -/
structure Addresses where
  nrOfNodes : Nat
  addr : Nat → Nat
  iptable : Nat → IpBucket

/-- The chain behind a base entry in use gets the new entry at its end. -/
def IpBucket.add (entry : IpEntry) (bucket : IpBucket) : IpBucket :=
  if bucket.base.ipAddr ≠ 0 then
    { bucket with next := bucket.next ++ [entry] }
  else
    { bucket with base := entry }

/-- `addToIPTable()`; it exits on an address within the loopback range. -/
def addToIPTable (addr node : Nat) (iptable : Nat → IpBucket) : Option (Nat → IpBucket) :=
  if ntohl addr / 2 ^ 24 = inLoopbackNet then none
  else
    some (update iptable (ipHash addr) ((iptable (ipHash addr)).add ⟨addr, node⟩))

/-- `doRemove()` of the entry in front of `next`: the entry is replaced by its
successor. -/
def doRemove : List IpEntry → IpBucket
  | [] => { base := .zero, next := [] }
  | tmp :: rest => { base := tmp, next := rest }

/-- The loop of `rmFromIPTable()`. -/
def rmFromChain (addr node : Nat) : List IpEntry → List IpEntry
  | [] => []
  | entry :: next =>
    if entry.ipAddr = addr ∧ entry.node = node then
      (doRemove next).base :: (doRemove next).next
    else entry :: rmFromChain addr node next

def IpBucket.remove (addr node : Nat) (bucket : IpBucket) : IpBucket :=
  if bucket.base.ipAddr = addr ∧ bucket.base.node = node then
    doRemove bucket.next
  else { bucket with next := rmFromChain addr node bucket.next }

/-- `rmFromIPTable()`. -/
def rmFromIPTable (addr node : Nat) (iptable : Nat → IpBucket) : Nat → IpBucket :=
  update iptable (ipHash addr) ((iptable (ipHash addr)).remove addr node)

def IpBucket.entries (bucket : IpBucket) : List IpEntry := bucket.base :: bucket.next

/-- `lookupIPTable()`; none stands for -1. -/
def lookupIPTable (addr : Nat) (iptable : Nat → IpBucket) : Option Nat :=
  ((iptable (ipHash addr)).entries.find? (fun entry => entry.ipAddr = addr)).map IpEntry.node

/-- An address that is entered into the table. -/
def IsConfigured (addr : Nat) : Prop := addr ≠ inaddrAny ∧ addr ≠ inaddrNone

instance (addr : Nat) : Decidable (IsConfigured addr) := by
  unfold IsConfigured
  infer_instance

def initIPTable : Nat → IpBucket :=
  fun _ => { base := .zero, next := [] }

/-- The loop of `initConntable()` over the first `count` nodes. -/
def initAddresses (hosts : Nat → Nat) : Nat → Option (Nat → IpBucket)
  | 0 => some initIPTable
  | count + 1 =>
    match initAddresses hosts count with
    | none => none
    | some iptable =>
      if IsConfigured (hosts count) then
        addToIPTable (hosts count) count iptable
      else some iptable

/-- `RDP_init()`. -/
def Addresses.init (nodes : Nat) (hosts : Nat → Nat) : Option Addresses :=
  (initAddresses hosts nodes).map
    (fun iptable => { nrOfNodes := nodes, addr := hosts, iptable := iptable })

/-- `RDP_updateNode()`. -/
def Addresses.updateNode (node addr : Nat) (table : Addresses) : Option Addresses :=
  if node ≥ table.nrOfNodes then some table
  else if table.addr node = addr then some table
  else
    let iptable := rmFromIPTable (table.addr node) node table.iptable
    let conntable := update table.addr node addr
    if IsConfigured addr then
      (addToIPTable addr node iptable).map
        (fun iptable => { table with addr := conntable, iptable := iptable })
    else some { table with addr := conntable, iptable := iptable }

/-- `RDP_updateNode()` for some nodes, unless the program exits. -/
def Addresses.updates : List (Nat × Nat) → Addresses → Option Addresses
  | [], table => some table
  | (node, addr) :: rest, table =>
    match table.updateNode node addr with
    | none => none
    | some table => Addresses.updates rest table

/-! ## The entries in use -/

def IpBucket.used (bucket : IpBucket) : List IpEntry :=
  bucket.entries.filter (fun entry => entry.ipAddr ≠ 0)

theorem IpBucket.used_eq (bucket : IpBucket) :
    bucket.used = (if bucket.base.ipAddr ≠ 0 then [bucket.base] else []) ++
      bucket.next.filter (fun entry => entry.ipAddr ≠ 0) := by
  unfold IpBucket.used IpBucket.entries
  rw [filter_cons]
  by_cases free : bucket.base.ipAddr = 0
  · simp [free]
  · simp [free]

theorem IpBucket.used_add (bucket : IpBucket) {entry : IpEntry}
    (inUse : entry.ipAddr ≠ 0) :
    (bucket.add entry).used.Perm (entry :: bucket.used) := by
  have kept : [entry].filter (fun entry => entry.ipAddr ≠ 0) = [entry] := by
    simp [inUse]
  unfold IpBucket.add
  split
  · rw [IpBucket.used_eq, IpBucket.used_eq bucket]
    dsimp only
    rw [filter_append, kept, ← append_assoc]
    exact perm_append_comm
  · next free =>
      rw [IpBucket.used_eq, IpBucket.used_eq bucket, if_neg free, if_pos inUse]
      exact List.Perm.refl _

theorem used_doRemove (next : List IpEntry) :
    (doRemove next).used = next.filter (fun entry => entry.ipAddr ≠ 0) := by
  cases next with
  | nil => rfl
  | cons tmp rest => rfl

/-- Removing an entry removes it from those in use, and no other. -/
theorem filter_rmFromChain (addr node : Nat) (next : List IpEntry) :
    (rmFromChain addr node next).filter (fun entry => entry.ipAddr ≠ 0) =
      (next.filter (fun entry => entry.ipAddr ≠ 0)).erase ⟨addr, node⟩ := by
  induction next with
  | nil => rfl
  | cons entry next induction =>
    rw [rmFromChain]
    split
    · next found =>
        rcases found with ⟨rfl, rfl⟩
        have removed := used_doRemove next
        unfold IpBucket.used IpBucket.entries at removed
        rw [removed, filter_cons]
        split
        · rw [erase_cons_head]
        · next zeroed =>
            rw [erase_of_not_mem]
            intro member
            exact zeroed (mem_filter.1 member).2
    · next other =>
        have different : entry ≠ ⟨addr, node⟩ := by
          rintro rfl
          exact other ⟨rfl, rfl⟩
        rw [filter_cons, filter_cons, induction]
        split
        · rw [erase_cons_tail]
          simpa using different
        · rfl

theorem IpBucket.used_remove (addr node : Nat) (bucket : IpBucket) :
    (bucket.remove addr node).used = bucket.used.erase ⟨addr, node⟩ := by
  have chain := filter_rmFromChain addr node bucket.entries
  unfold IpBucket.entries at chain
  rw [rmFromChain] at chain
  unfold IpBucket.remove
  split
  · next found =>
      rw [if_pos found] at chain
      exact chain
  · next other =>
      rw [if_neg other] at chain
      exact chain

/-! ## The table and the nodes -/

/-- The entries in use are those of the first `count` nodes that have an
address, each once and in the bucket of its address. -/
structure Inverse (count : Nat) (addr : Nat → Nat) (iptable : Nat → IpBucket) :
    Prop where
  once : ∀ idx, (iptable idx).used.Nodup
  listed : ∀ idx entry, entry ∈ (iptable idx).used ↔
    entry.node < count ∧ addr entry.node = entry.ipAddr ∧
      IsConfigured entry.ipAddr ∧ ipHash entry.ipAddr = idx

theorem inverse_initIPTable (addr : Nat → Nat) : Inverse 0 addr initIPTable := by
  constructor
  · intro idx
    exact nodup_nil
  · intro idx entry
    constructor
    · intro member
      exact absurd member not_mem_nil
    · intro none
      exact absurd none.1 (Nat.not_lt_zero _)

variable {addr node count : Nat} {table : Addresses}

theorem addToIPTable_used {before after : Nat → IpBucket}
    (added : addToIPTable addr node before = some after) (inUse : addr ≠ 0) (idx : Nat) :
    (after idx).used.Perm
      (if idx = ipHash addr then ⟨addr, node⟩ :: (before idx).used
      else (before idx).used) := by
  unfold addToIPTable at added
  split at added
  · exact absurd added (by simp)
  · rw [Option.some.injEq] at added
    rw [← added]
    split
    · next same =>
        rw [same, update_self]
        exact (before (ipHash addr)).used_add inUse
    · next other => rw [update_of_ne other]

theorem rmFromIPTable_used (addr node : Nat) (before : Nat → IpBucket)
    (idx : Nat) :
    (rmFromIPTable addr node before idx).used =
      if idx = ipHash addr then (before idx).used.erase ⟨addr, node⟩
      else (before idx).used := by
  unfold rmFromIPTable
  split
  · next same =>
      rw [same, update_self]
      exact (before (ipHash addr)).used_remove addr node
  · next other => rw [update_of_ne other]

theorem Inverse.add {conntable : Nat → Nat} {listed : Nat → Nat}
    {before after : Nat → IpBucket} (once : ∀ idx, (before idx).used.Nodup)
    (others : ∀ idx entry, entry ∈ (before idx).used ↔ entry.node ≠ node ∧ entry.node < count ∧
        listed entry.node = entry.ipAddr ∧ IsConfigured entry.ipAddr ∧
          ipHash entry.ipAddr = idx) (known : node < count)
    (configured : IsConfigured addr) (here : conntable node = addr)
    (same : ∀ other, other ≠ node → conntable other = listed other)
    (added : addToIPTable addr node before = some after) :
    Inverse count conntable after := by
  have changed := addToIPTable_used added configured.1
  constructor
  · intro idx
    rw [(changed idx).nodup_iff]
    split
    · rw [nodup_cons]
      refine ⟨?_, once idx⟩
      intro member
      exact ((others idx _).1 member).1 rfl
    · exact once idx
  · intro idx entry
    rw [(changed idx).mem_iff]
    by_cases own : entry.node = node
    · have absent : entry ∉ (before idx).used :=
        fun member => ((others idx _).1 member).1 own
      have present : entry.node < count ∧
          conntable entry.node = entry.ipAddr ∧
          IsConfigured entry.ipAddr ∧ ipHash entry.ipAddr = idx ↔
            entry = ⟨addr, node⟩ ∧ idx = ipHash addr := by
        rcases entry with ⟨ipAddr, owner⟩
        simp only at own
        subst own
        rw [here]
        constructor
        · rintro ⟨_, rfl, _, rfl⟩
          exact ⟨rfl, rfl⟩
        · rintro ⟨entry_eq, rfl⟩
          have addr_eq : ipAddr = addr := congrArg IpEntry.ipAddr entry_eq
          rw [addr_eq]
          exact ⟨known, rfl, configured, rfl⟩
      rw [present]
      split
      · next bucket =>
          rw [mem_cons]
          subst bucket
          simp [absent]
      · next elsewhere => simp [absent, elsewhere]
    · have foreign : entry ≠ ⟨addr, node⟩ := by
        rintro rfl
        exact own rfl
      have kept := others idx entry
      rw [← same _ own] at kept
      split
      · rw [mem_cons, kept]
        simp [foreign, own]
      · rw [kept]
        simp [own]

theorem Inverse.remove {addr : Nat → Nat} {iptable : Nat → IpBucket}
    (inverse : Inverse count addr iptable) (node : Nat) :
    (∀ idx, (rmFromIPTable (addr node) node iptable idx).used.Nodup) ∧ ∀ idx entry,
        entry ∈ (rmFromIPTable (addr node) node iptable idx).used ↔
          entry.node ≠ node ∧ entry.node < count ∧
            addr entry.node = entry.ipAddr ∧ IsConfigured entry.ipAddr ∧
              ipHash entry.ipAddr = idx := by
  constructor
  · intro idx
    rw [rmFromIPTable_used]
    split
    · exact (inverse.once idx).erase _
    · exact inverse.once idx
  · intro idx entry
    have removed : entry ∈ (rmFromIPTable (addr node) node iptable idx).used ↔
        entry ∈ (iptable idx).used ∧ ¬ (idx = ipHash (addr node) ∧ entry = ⟨addr node, node⟩) := by
      rw [rmFromIPTable_used]
      split
      · next same =>
          rw [(inverse.once idx).mem_erase_iff]
          simp [same, and_comm]
      · next other => simp [other]
    rw [removed, inverse.listed]
    constructor
    · rintro ⟨⟨known, own, configured, hash⟩, kept⟩
      refine ⟨?_, known, own, configured, hash⟩
      rintro rfl
      rw [own] at kept
      exact kept ⟨hash.symm, rfl⟩
    · rintro ⟨other, known, own, configured, hash⟩
      refine ⟨⟨known, own, configured, hash⟩, ?_⟩
      rintro ⟨_, rfl⟩
      exact other rfl

theorem initAddresses_inverse {hosts : Nat → Nat} {iptable : Nat → IpBucket}
    (started : initAddresses hosts count = some iptable) :
    Inverse count hosts iptable := by
  induction count generalizing iptable with
  | zero =>
    rw [initAddresses, Option.some.injEq] at started
    rw [← started]
    exact inverse_initIPTable hosts
  | succ count induction =>
    rw [initAddresses] at started
    rcases first : initAddresses hosts count with _ | before
    · simp only [first] at started
      exact absurd started (by simp)
    · have inverse := induction first
      simp only [first] at started
      have others : ∀ idx entry, entry ∈ (before idx).used ↔
          entry.node ≠ count ∧ entry.node < count + 1 ∧ hosts entry.node = entry.ipAddr ∧
              IsConfigured entry.ipAddr ∧ ipHash entry.ipAddr = idx := by
        intro idx entry
        rw [inverse.listed]
        constructor
        · rintro ⟨known, rest⟩
          exact ⟨by omega, by omega, rest⟩
        · rintro ⟨other, known, rest⟩
          exact ⟨by omega, rest⟩
      split at started
      · next configured =>
          exact Inverse.add inverse.once others (Nat.lt_succ_self count)
            configured rfl (fun _ _ => rfl) started
      · next unset =>
          rw [Option.some.injEq] at started
          rw [← started]
          refine ⟨inverse.once, ?_⟩
          intro idx entry
          rw [others]
          constructor
          · rintro ⟨_, rest⟩
            exact rest
          · rintro ⟨known, own, configured, hash⟩
            refine ⟨?_, known, own, configured, hash⟩
            rintro same
            rw [same] at own
            exact unset (own ▸ configured)

theorem Addresses.updateNode_inverse {after : Addresses}
    (inverse : Inverse table.nrOfNodes table.addr table.iptable)
    (updated : table.updateNode node addr = some after) :
    Inverse after.nrOfNodes after.addr after.iptable := by
  unfold Addresses.updateNode at updated
  split at updated
  · rw [Option.some.injEq] at updated
    rw [← updated]
    exact inverse
  · next known =>
      split at updated
      · rw [Option.some.injEq] at updated
        rw [← updated]
        exact inverse
      · have inside : node < table.nrOfNodes := Nat.lt_of_not_le known
        rcases inverse.remove node with ⟨once, others⟩
        simp only at updated
        split at updated
        · next configured =>
            rcases map_eq_some_iff.1 updated with
              ⟨iptable, added, rfl⟩
            exact Inverse.add once others inside configured (update_self _ _ _)
              (fun other different => update_of_ne different _ _) added
        · next unset =>
            rw [Option.some.injEq] at updated
            rw [← updated]
            refine ⟨once, ?_⟩
            intro idx entry
            rw [others]
            by_cases own : entry.node = node
            · have here : update table.addr node addr entry.node =
                  addr := by rw [own, update_self]
              constructor
              · rintro ⟨foreign, _⟩
                exact absurd own foreign
              · rintro ⟨_, same, configured, _⟩
                exact absurd (same.symm.trans here ▸ configured) unset
            · have kept : update table.addr node addr entry.node =
                  table.addr entry.node := update_of_ne own _ _
              simp only [own, ne_eq, not_false_eq_true, true_and, kept]

theorem Addresses.updates_inverse {updates : List (Nat × Nat)} {after : Addresses}
    (inverse : Inverse table.nrOfNodes table.addr table.iptable)
    (updated : Addresses.updates updates table = some after) :
    Inverse after.nrOfNodes after.addr after.iptable := by
  induction updates generalizing table with
  | nil =>
    rw [Addresses.updates, Option.some.injEq] at updated
    rw [← updated]
    exact inverse
  | cons update rest induction =>
    rcases update with ⟨node, addr⟩
    rw [Addresses.updates] at updated
    rcases first : table.updateNode node addr with _ | next
    · simp only [first] at updated
      exact absurd updated (by simp)
    · simp only [first] at updated
      exact induction (table.updateNode_inverse inverse first) updated

theorem lookupIPTable_eq (inUse : addr ≠ 0) (iptable : Nat → IpBucket) :
    lookupIPTable addr iptable =
      ((iptable (ipHash addr)).used.find? (fun entry => entry.ipAddr = addr)).map IpEntry.node := by
  unfold lookupIPTable IpBucket.used
  rw [find?_filter]
  congr 2
  funext entry
  by_cases found : entry.ipAddr = addr
  · simp [found, inUse]
  · simp [found]

/-- Looking an address up gives a node that has it, or none has. -/
def Answers (addr : Nat) (table : Addresses) : Prop :=
  match lookupIPTable addr table.iptable with
  | some node => node < table.nrOfNodes ∧ table.addr node = addr
  | none => ∀ node, node < table.nrOfNodes → table.addr node ≠ addr

theorem Inverse.answers (inverse : Inverse table.nrOfNodes table.addr table.iptable)
    (configured : IsConfigured addr) : Answers addr table := by
  unfold Answers
  rw [lookupIPTable_eq configured.1]
  rcases found : (table.iptable (ipHash addr)).used.find?
    (fun entry => entry.ipAddr = addr) with _ | entry
  · rw [found]
    simp only [map_none]
    intro node known own
    have listed := (inverse.listed (ipHash addr) ⟨addr, node⟩).2 ⟨known, own, configured, rfl⟩
    have other := find?_eq_none.1 found _ listed
    simp at other
  · have member := mem_of_find?_eq_some found
    have own : entry.ipAddr = addr := by
      simpa using find?_some found
    rcases (inverse.listed _ _).1 member with ⟨known, same, _⟩
    rw [found]
    exact ⟨known, same.trans own⟩

/-- After `RDP_init()` and any calls of `RDP_updateNode()` the table is the
inverse of the addresses. -/
theorem lookupIPTable_inverse {nodes : Nat} {hosts : Nat → Nat} {updates : List (Nat × Nat)}
    {start table : Addresses} (started : Addresses.init nodes hosts = some start)
    (updated : Addresses.updates updates start = some table) {addr : Nat}
    (notAny : addr ≠ inaddrAny) (notNone : addr ≠ inaddrNone) :
    Answers addr table := by
  rcases map_eq_some_iff.1 started with ⟨iptable, filled, rfl⟩
  have inverse := Addresses.updates_inverse (initAddresses_inverse filled) updated
  exact inverse.answers ⟨notAny, notNone⟩

/-- Two nodes whose addresses share a bucket. -/
def sampleStart : Option Addresses := Addresses.init 2 (fun node => 0x05000000 + node)

/-- Node 0 has moved to another address. -/
def sampleMoved : Option Addresses := sampleStart.bind (Addresses.updates [(0, 0x05000007)])

theorem sampleMoved_some : sampleMoved.isSome = true := by
  decide +kernel

theorem lookupIPTable_inverse_moved : Answers 0x05000001 (sampleMoved.get sampleMoved_some) := by
  have moved := some_get sampleMoved_some
  rcases bind_eq_some_iff.1 moved.symm with ⟨start, started, updated⟩
  exact lookupIPTable_inverse started updated (by decide) (by decide)

/-! ## The connection table -/

end Psmgmt.Rdp
