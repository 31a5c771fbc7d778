import Psmgmt.Library.History
import Psmgmt.Rdp.IpTable

/-!
# The table of hosts

The addresses of the nodes in `psidnodes.c` and the hash that leads from
addresses to nodes.
-/

namespace Psmgmt.Nodes

open List Function
open Rdp (ntohl ipHash inLoopbackNet)

def INADDR_ANY : Nat := 0

def INADDR_NONE : Nat := 0xffffffff

structure Host where
  addr : Nat
  id : Int
  deriving DecidableEq

structure Table where
  numNodes : Int
  addr : Int → Nat
  hosts : Nat → List Host

/-- A known address. -/
def Known (addr : Nat) : Prop := addr ≠ INADDR_ANY ∧ addr ≠ INADDR_NONE

instance (addr : Nat) : Decidable (Known addr) := inferInstanceAs (Decidable (_ ∧ _))

def Loopback (addr : Nat) : Prop := ntohl addr / 2 ^ 24 = inLoopbackNet

instance (addr : Nat) : Decidable (Loopback addr) := inferInstanceAs (Decidable (_ = _))

def init : Table where
  numNodes := -1
  addr _ := INADDR_ANY
  hosts _ := []

def validID (table : Table) (id : Int) : Bool := decide (0 ≤ id) && decide (id < table.numNodes)

/-- `PSIDnodes_grow()`, as long as there is memory. -/
def grow (num : Int) (table : Table) : Table :=
  if table.numNodes ≥ num then table
  else
    { numNodes := num
      addr := fun id => if 0 ≤ id ∧ id < table.numNodes then table.addr id else INADDR_ANY
      hosts := if table.numNodes < 0 then fun _ => [] else table.hosts }

def getAddr (table : Table) (id : Int) : Nat :=
  if validID table id then table.addr id else INADDR_ANY

def lookupHost (myID : Int) (addr : Nat) (table : Table) : Int :=
  if table.numNodes < 0 then -1
  else if Loopback addr then myID
  else
    match (table.hosts (ipHash addr)).find? (fun h => decide (h.addr = addr)) with
    | some h => h.id
    | none => -1

/-- Removal of the entry of the old address; it is the new one that is looked
for. -/
def cleanup (oldAddr addr : Nat) (hosts : Nat → List Host) : Nat → List Host :=
  if Known oldAddr then
    update hosts (ipHash oldAddr) ((hosts (ipHash oldAddr)).eraseP fun h => decide (h.addr = addr))
  else hosts

def insert (id : Int) (addr : Nat) (hosts : Nat → List Host) : Nat → List Host :=
  if Known addr then
    update hosts (ipHash addr) (⟨addr, id⟩ :: hosts (ipHash addr))
  else hosts

def setAddr (id : Int) (addr : Nat) (table : Table) : Option Table :=
  if validID table id = false then none
  else
    some { table with
      hosts := insert id addr (cleanup (getAddr table id) addr table.hosts)
      addr := update table.addr id addr }

def GROW_CHUNK : Int := 64

def register (myID id : Int) (addr : Nat) (table : Table) : Option Table :=
  if id < 0 then none
  else if addr ≠ INADDR_NONE ∧ lookupHost myID addr table ≠ -1 then none
  else if getAddr table id ≠ INADDR_ANY then none
  else
    setAddr id addr
      (if id ≥ table.numNodes then
        grow (GROW_CHUNK * (id / GROW_CHUNK + 1)) table
      else table)

/-! ## Sequences of calls -/

inductive Call where
  | register (id : Int) (addr : Nat)
  | setAddr (id : Int) (addr : Nat)
  | grow (num : Int)

/-- A call that fails changes nothing. -/
def perform (myID : Int) (table : Table) : Call → Table
  | .register id addr => (register myID id addr table).getD table
  | .setAddr id addr => (setAddr id addr table).getD table
  | .grow num => grow num table

def run (myID : Int) (calls : List Call) : Table := calls.foldl (perform myID) init

/-- Addresses are not in the loopback net, and no other node has the address
that a node gets. -/
def Allowed (table : Table) : Call → Prop
  | .register _ addr => ¬ Loopback addr
  | .setAddr id addr => ¬ Loopback addr ∧
    (Known addr → ∀ other, getAddr table other = addr → other = id)
  | .grow _ => True

/-- Looking up an address gives the node that has it. -/
def Correct (myID : Int) (table : Table) : Prop :=
  ∀ addr, Known addr → ¬ Loopback addr →
    (∀ id, getAddr table id = addr → lookupHost myID addr table = id) ∧
    ((∀ id, getAddr table id ≠ addr) → lookupHost myID addr table = -1)

/-- The node has no known address yet or keeps it. -/
def Keeps (table : Table) : Call → Prop
  | .setAddr id addr => Known (getAddr table id) → addr = getAddr table id
  | _ => True

/-- Nodes with known addresses, and the entries of the hash. -/
structure Books (table : Table) : Prop where
  remote : ∀ id, Known (getAddr table id) → ¬ Loopback (getAddr table id)
  distinct : ∀ id other, Known (getAddr table id) →
    getAddr table id = getAddr table other → id = other
  entry : ∀ id, Known (getAddr table id) →
    ⟨getAddr table id, id⟩ ∈ table.hosts (ipHash (getAddr table id))
  holds : ∀ bucket, ∀ h ∈ table.hosts bucket,
    0 ≤ table.numNodes → getAddr table h.id = h.addr ∧ Known h.addr

variable {table : Table} {myID : Int}

theorem valid_of_known {id : Int} (known : Known (getAddr table id)) :
    0 ≤ id ∧ id < table.numNodes := by
  by_contra invalid
  have unknown : getAddr table id = INADDR_ANY := by
    rw [getAddr, validID, if_neg]
    simpa using invalid
  exact known.1 unknown

theorem Books.found (books : Books table) {addr : Nat} {h : Host} (initialized : 0 ≤ table.numNodes)
    (found : (table.hosts (ipHash addr)).find? (fun h => decide (h.addr = addr)) = some h) :
    getAddr table h.id = addr := by
  have same : h.addr = addr := by simpa using find?_some found
  exact ((books.holds _ h (mem_of_find?_eq_some found) initialized).1).trans same

/-- The chain of an address has an entry for it if and only if a node has it. -/
theorem Books.correct (books : Books table) : Correct myID table := by
  intro addr known remote
  constructor
  · rintro id rfl
    obtain ⟨least, below⟩ := valid_of_known known
    have entry := books.entry id known
    rw [lookupHost, if_neg (by omega), if_neg remote]
    cases found : (table.hosts (ipHash (getAddr table id))).find?
        (fun h => decide (h.addr = getAddr table id)) with
    | none =>
      have absent := find?_eq_none.mp found _ entry
      simp at absent
    | some h =>
      have holds := books.found (by omega) found
      exact (books.distinct id h.id known holds.symm).symm
  · intro missing
    rw [lookupHost]
    split
    · rfl
    · cases found : (table.hosts (ipHash addr)).find? (fun h => decide (h.addr = addr)) with
      | none => rfl
      | some h => exact absurd (books.found (by omega) found) (missing h.id)

theorem getAddr_grow (num : Int) (table : Table) (id : Int) :
    getAddr (grow num table) id = getAddr table id := by
  rw [grow]
  split
  · rfl
  · simp only [getAddr, validID, Bool.and_eq_true, decide_eq_true_eq]
    split
    · rfl
    · split
      · omega
      · rfl

theorem Books.grow (books : Books table) (num : Int) : Books (Nodes.grow num table) := by
  by_cases more : table.numNodes ≥ num
  · rw [Nodes.grow, if_pos more]
    exact books
  have hosts : (Nodes.grow num table).hosts =
      if table.numNodes < 0 then fun _ => [] else table.hosts := by
    rw [Nodes.grow, if_neg more]
  refine ⟨?_, ?_, ?_, ?_⟩
  · intro id
    rw [getAddr_grow]
    exact books.remote id
  · intro id other
    rw [getAddr_grow, getAddr_grow]
    exact books.distinct id other
  · intro id
    rw [getAddr_grow, hosts]
    intro known
    have valid := valid_of_known known
    rw [if_neg (by omega)]
    exact books.entry id known
  · intro bucket h
    rw [getAddr_grow, hosts]
    intro member _
    split at member
    · cases member
    · next initialized => exact books.holds bucket h member (by omega)

theorem setAddr_eq {id : Int} {addr : Nat} {after : Table}
    (changed : setAddr id addr table = some after) :
    after.hosts = insert id addr (cleanup (getAddr table id) addr table.hosts) ∧
      after.numNodes = table.numNodes ∧ 0 ≤ table.numNodes ∧
      ∀ other, getAddr after other =
        if other = id then addr else getAddr table other := by
  rw [setAddr] at changed
  split at changed
  · cases changed
  next valid =>
  cases changed
  simp only [validID, Bool.and_eq_true, decide_eq_true_eq, Bool.not_eq_false]
    at valid
  refine ⟨rfl, rfl, by omega, fun other => ?_⟩
  simp only [getAddr, validID, Bool.and_eq_true, decide_eq_true_eq]
  by_cases same : other = id
  · subst same
    rw [if_pos valid, update_self, if_pos rfl]
  · rw [update_of_ne same, if_neg same]

theorem of_mem_cleanup {oldAddr addr : Nat} {hosts : Nat → List Host}
    {bucket : Nat} {h : Host} (member : h ∈ cleanup oldAddr addr hosts bucket) :
    h ∈ hosts bucket := by
  rw [cleanup] at member
  split at member
  · by_cases here : bucket = ipHash oldAddr
    · subst here
      rw [update_self] at member
      exact mem_of_mem_eraseP member
    · rwa [update_of_ne here] at member
  · exact member

theorem mem_cleanup {oldAddr addr : Nat} {hosts : Nat → List Host}
    {bucket : Nat} {h : Host} (other : h.addr ≠ addr) :
    h ∈ cleanup oldAddr addr hosts bucket ↔ h ∈ hosts bucket := by
  rw [cleanup]
  split
  · by_cases here : bucket = ipHash oldAddr
    · subst here
      rw [update_self]
      exact mem_eraseP_of_neg (by simpa using other)
    · rw [update_of_ne here]
  · rfl

theorem mem_insert {id : Int} {addr : Nat} {hosts : Nat → List Host}
    {bucket : Nat} {h : Host} : h ∈ insert id addr hosts bucket ↔
      Known addr ∧ bucket = ipHash addr ∧ h = ⟨addr, id⟩ ∨ h ∈ hosts bucket := by
  rw [insert]
  split
  · next known =>
    by_cases here : bucket = ipHash addr
    · subst here
      simp [known]
    · simp [here]
  · next unknown => simp [unknown]

theorem Books.setAddr {id : Int} {addr : Nat} {after : Table}
    (books : Books table) (remote : ¬ Loopback addr)
    (free : Known addr → ∀ other, getAddr table other = addr → other = id)
    (keeps : Known (getAddr table id) → addr = getAddr table id)
    (changed : Nodes.setAddr id addr table = some after) : Books after := by
  obtain ⟨hosts, -, initialized, addrs⟩ := setAddr_eq changed
  have others {other : Int} (known : Known addr) (different : other ≠ id) :
      getAddr table other ≠ addr := fun same =>
    different (free known other same)
  refine ⟨?_, ?_, ?_, ?_⟩
  · intro other
    rw [addrs]
    split
    · exact fun _ => remote
    · exact books.remote other
  · intro first second
    rw [addrs, addrs]
    split
    · next here =>
      split
      · next there => exact fun _ _ => here.trans there.symm
      · next there => exact fun known same => absurd same.symm (others known there)
    · next here =>
      split
      · exact fun known same => absurd same (others (same ▸ known) here)
      · exact books.distinct first second
  · intro other
    rw [addrs, hosts, mem_insert]
    split
    · next here => exact fun known => .inl ⟨known, rfl, here ▸ rfl⟩
    · next here =>
      intro known
      refine .inr ((mem_cleanup fun same => ?_).mpr (books.entry other known))
      exact others (same ▸ known) here same
  · intro bucket h member _
    rw [addrs]
    rw [hosts, mem_insert] at member
    rcases member with ⟨known, -, rfl⟩ | member
    · exact ⟨if_pos rfl, known⟩
    · obtain ⟨same, known⟩ := books.holds bucket h (of_mem_cleanup member) initialized
      refine ⟨?_, known⟩
      split
      · next here =>
        rw [here] at same
        exact (keeps (same ▸ known)).trans same
      · exact same

/-- The entry of an address that is changed stays. -/
theorem Books.keeps {id : Int} {addr : Nat} {after : Table}
    (books : Books table) (changed : Nodes.setAddr id addr table = some after)
    (correct : Correct myID after) (known : Known (getAddr table id)) :
    addr = getAddr table id := by
  by_contra different
  obtain ⟨hosts, number, initialized, addrs⟩ := setAddr_eq changed
  have remote := books.remote id known
  have missing (other : Int) : getAddr after other ≠ getAddr table id := by
    rw [addrs]
    split
    · exact different
    · next here => exact fun same => here (books.distinct id other known same.symm).symm
  have nobody := (correct _ known remote).2 missing
  rw [lookupHost, if_neg (by omega), if_neg remote] at nobody
  cases found : (after.hosts (ipHash (getAddr table id))).find?
      (fun h => decide (h.addr = getAddr table id)) with
  | none =>
    have stays : ⟨getAddr table id, id⟩ ∈ after.hosts (ipHash (getAddr table id)) := by
      rw [hosts, mem_insert]
      exact .inr ((mem_cleanup (Ne.symm different)).mpr (books.entry id known))
    simpa using find?_eq_none.mp found _ stays
  | some h =>
    rw [found] at nobody
    have same : h.addr = getAddr table id := by simpa using find?_some found
    have member := mem_of_find?_eq_some found
    rw [hosts, mem_insert] at member
    rcases member with ⟨-, -, rfl⟩ | member
    · exact different same
    · have holds := books.holds _ h (of_mem_cleanup member) initialized
      have valid : 0 ≤ h.id ∧ _ := valid_of_known (holds.1 ▸ holds.2)
      change h.id = -1 at nobody
      omega

/-! ## Runs -/

theorem Books.register {id : Int} {addr : Nat} {after : Table} (books : Books table)
    (remote : ¬ Loopback addr) (changed : Nodes.register myID id addr table = some after) :
    Books after := by
  rw [Nodes.register] at changed
  split at changed
  · cases changed
  split at changed
  · cases changed
  next unused =>
  split at changed
  · cases changed
  next unset =>
  generalize larger : (if id ≥ table.numNodes then
    Nodes.grow (GROW_CHUNK * (id / GROW_CHUNK + 1)) table else table) = before at changed
  have grown : Books before ∧ ∀ other, getAddr before other = getAddr table other := by
    rw [← larger]
    split
    · exact ⟨books.grow _, getAddr_grow _ table⟩
    · exact ⟨books, fun _ => rfl⟩
  refine grown.1.setAddr remote (fun known other same => ?_) (fun known => ?_) changed
  · rw [grown.2] at same
    subst same
    have found := (books.correct : Correct myID _) _ known remote |>.1 other rfl
    have valid := valid_of_known known
    exact absurd ⟨known.2, by rw [found]; omega⟩ unused
  · rw [grown.2, not_not.mp unset] at known
    exact absurd rfl known.1

theorem Books.perform (books : Books table) {call : Call}
    (allowed : Allowed table call) (keeps : Keeps table call) :
    Books (Nodes.perform myID table call) := by
  cases call with
  | register id addr =>
    rw [Nodes.perform]
    cases changed : Nodes.register myID id addr table with
    | none => exact books
    | some after => exact books.register allowed changed
  | setAddr id addr =>
    rw [Nodes.perform]
    cases changed : Nodes.setAddr id addr table with
    | none => exact books
    | some after => exact books.setAddr allowed.1 allowed.2 keeps changed
  | grow num => exact books.grow num

theorem Books.of_correct (books : Books table) {call : Call}
    (correct : Correct myID (Nodes.perform myID table call)) :
    Keeps table call := by
  cases call with
  | register id addr => trivial
  | grow num => trivial
  | setAddr id addr =>
    intro known
    have valid := valid_of_known known
    have changed : Nodes.setAddr id addr table = some _ := if_neg (by
      simp [validID, valid])
    rw [Nodes.perform, changed] at correct
    exact books.keeps changed correct known

theorem books_init : Books init where
  remote id known := absurd (valid_of_known known) (by simp [init]; omega)
  distinct id other known := absurd (valid_of_known known) (by simp [init]; omega)
  entry id known := absurd (valid_of_known known) (by simp [init]; omega)
  holds bucket h member := nomatch member

theorem run_concat (calls : List Call) (call : Call) :
    run myID (calls ++ [call]) = perform myID (run myID calls) call := by
  simp [run]

/-- Looking up addresses gives the right nodes all the time if and only if no
node with a known address gets another one. -/
theorem lookupHost_correct_iff (myID : Int) (calls : List Call)
    (allowed : Lawful (fun before => Allowed (run myID before)) calls) :
    (∀ before after, calls = before ++ after → Correct myID (run myID before)) ↔
      Lawful (fun before => Keeps (run myID before)) calls := by
  constructor
  · intro correct
    have books : ∀ before after, calls = before ++ after → Books (run myID before) := by
      intro before
      induction before using List.reverseRecOn with
      | nil => exact fun _ _ => books_init
      | append_singleton before call induction =>
        intro after split
        rw [append_assoc] at split
        have earlier := induction _ split
        rw [run_concat]
        refine earlier.perform (allowed before call after split)
          (earlier.of_correct (?_ : Correct myID _))
        rw [← run_concat]
        exact correct (before ++ [call]) after (by simp [split])
    intro before call after split
    refine (books before _ split).of_correct (?_ : Correct myID _)
    rw [← run_concat]
    exact correct (before ++ [call]) after (by simp [split])
  · intro keeps before
    suffices books : ∀ after, calls = before ++ after → Books (run myID before) from
      fun after split => (books after split).correct
    induction before using List.reverseRecOn with
    | nil => exact fun _ _ => books_init
    | append_singleton before call induction =>
      intro after split
      rw [append_assoc] at split
      rw [run_concat]
      exact (induction _ split).perform (allowed before call after split)
        (keeps before call after split)

theorem lookupHost_correct_grow : Correct 0 (run 0 [.grow 1]) :=
  (lookupHost_correct_iff 0 [.grow 1] (Lawful.nil.concat trivial)).mpr
    (Lawful.nil.concat trivial) _ [] rfl

/-- The old address of a node still leads to it. -/
theorem not_lookupHost_correct :
    ¬ ∀ (myID : Int) (calls : List Call), Lawful (fun before => Allowed (run myID before)) calls →
        Correct myID (run myID calls) := by
  intro all
  have only {calls : List Call} (number : (run 0 calls).numNodes = 1) (id : Int)
      {addr : Nat} (known : Known addr) (same : getAddr (run 0 calls) id = addr) :
      id = 0 := by
    have valid := valid_of_known (same ▸ known)
    omega
  have known : Known 10 ∧ Known 11 := by decide
  have allowed : Lawful (fun before => Allowed (run 0 before))
      [.grow 1, .setAddr 0 10, .setAddr 0 11] :=
    ((Lawful.nil.concat trivial).concat ⟨by decide, fun known id => only rfl id known⟩).concat
        ⟨by decide, fun known id => only rfl id known⟩
  have wrong := (all 0 _ allowed 10 known.1 (by decide)).2 fun id same => by
    rw [only rfl id known.1 same] at same
    exact absurd same (by decide)
  exact absurd wrong (by decide)

/-! ## Addresses in use -/

def firstEntry (addr : Nat) (hosts : Nat → List Host) : Option Host :=
  (hosts (ipHash addr)).find? fun h => decide (h.addr = addr)

/-- The first entry of an address in use is the one of the node that has it. -/
def Held (table : Table) : Prop :=
  ∀ id, Known (getAddr table id) → ¬ Loopback (getAddr table id) ∧
    firstEntry (getAddr table id) table.hosts = some ⟨getAddr table id, id⟩

theorem Held.lookup (held : Held table) {id : Int} (known : Known (getAddr table id)) :
    lookupHost myID (getAddr table id) table = id := by
  obtain ⟨remote, first⟩ := held id known
  have valid := valid_of_known known
  rw [firstEntry] at first
  rw [lookupHost, if_neg (by omega), if_neg remote, first]

/-- Entries of other addresses are neither hidden nor removed. -/
theorem firstEntry_changed {id : Int} {oldAddr addr other : Nat} {hosts : Nat → List Host}
    (apart : addr ≠ other) :
    firstEntry other (insert id addr (cleanup oldAddr addr hosts)) = firstEntry other hosts := by
  have erased (l : List Host) : (l.eraseP fun h => decide (h.addr = addr)).find?
      (fun h => decide (h.addr = other)) = l.find? (fun h => decide (h.addr = other)) := by
    induction l with
    | nil => rfl
    | cons h rest induction =>
      by_cases here : h.addr = addr
      · simp [here, apart]
      · simp [here, induction, find?_cons]
  have cleaned : firstEntry other (cleanup oldAddr addr hosts) = firstEntry other hosts := by
    rw [firstEntry, cleanup]
    split
    · rw [update_apply]
      split
      · next here => rw [erased, ← here, firstEntry]
      · rfl
    · rfl
  rw [← cleaned, firstEntry, insert]
  split
  · rw [update_apply]
    split
    · next here => simp [firstEntry, here, apart]
    · rfl
  · rfl

theorem Held.grow (held : Held table) (num : Int) : Held (Nodes.grow num table) := by
  intro id
  rw [getAddr_grow]
  intro known
  have valid := valid_of_known known
  rw [Nodes.grow]
  split
  · exact held id known
  · dsimp only
    rw [if_neg (by omega)]
    exact held id known

theorem Held.setAddr {failed : Table} {id : Int} {addr : Nat} (held : Held table)
    (kept : Held failed) (remote : ¬ Loopback addr)
    (free : Known addr → ∀ other, getAddr table other = addr → other = id) :
    Held ((Nodes.setAddr id addr table).getD failed) := by
  cases changed : Nodes.setAddr id addr table with
  | none => exact kept
  | some after =>
    obtain ⟨hosts, -, -, addrs⟩ := setAddr_eq changed
    intro other
    rw [Option.getD_some, addrs, hosts]
    split
    · next here =>
      intro known
      refine ⟨remote, ?_⟩
      simp [firstEntry, insert, known, here]
    · next here =>
      intro known
      rw [firstEntry_changed fun same => here (free (by rwa [same]) other same.symm)]
      exact held other known

theorem Held.register {id : Int} {addr : Nat} (held : Held table) (remote : ¬ Loopback addr) :
    Held ((Nodes.register myID id addr table).getD table) := by
  rw [Nodes.register]
  split_ifs with _ used _ larger
  any_goals exact held
  all_goals
    have free : Known addr → ∀ other, getAddr table other = addr → other = id := by
      rintro known other rfl
      have valid := valid_of_known known
      exact absurd ⟨known.2, by rw [held.lookup known]; omega⟩ used
  · exact (held.grow _).setAddr held remote (by simpa only [getAddr_grow] using free)
  · exact held.setAddr held remote free

/-- Whatever addresses were changed before, an address in use leads to the node
that has it. -/
theorem lookupHost_holder (myID : Int) (calls : List Call)
    (allowed : Lawful (fun before => Allowed (run myID before)) calls) (id : Int)
    (known : Known (getAddr (run myID calls) id)) :
    lookupHost myID (getAddr (run myID calls) id) (run myID calls) = id := by
  suffices held : ∀ before after, calls = before ++ after → Held (run myID before) from
    (held calls [] (append_nil calls).symm).lookup known
  intro before
  induction before using List.reverseRecOn with
  | nil => exact fun _ _ id known => absurd (valid_of_known known) (by simp [run, init]; omega)
  | append_singleton before call induction =>
    intro after split
    rw [append_assoc] at split
    have held := induction _ split
    have allowed := allowed before call after split
    rw [run_concat]
    cases call with
    | register id addr => exact held.register allowed
    | setAddr id addr => exact held.setAddr held allowed.1 allowed.2
    | grow num => exact held.grow num

theorem lookupHost_holder_setAddr : lookupHost 0 10 (run 0 [.grow 1, .setAddr 0 10]) = 0 :=
  have allowed : Lawful (fun before => Allowed (run 0 before)) [.grow 1, .setAddr 0 10] :=
    (Lawful.nil.concat trivial).concat ⟨by decide, fun known id same => by
      have valid : 0 ≤ id ∧ id < 1 := valid_of_known (same ▸ known)
      omega⟩
  lookupHost_holder 0 _ allowed 0 (by decide)

end Psmgmt.Nodes
