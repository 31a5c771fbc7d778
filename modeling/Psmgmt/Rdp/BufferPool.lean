import Psmgmt.Rdp.PacketRules

/-!
# The pools of buffers

Every message buffer is either free or pending to exactly one node, and every
small frame not in its pool is one of a pending message.  Hence `getSMsg()`
never fails after `getMsg()` succeeded.
-/

namespace Psmgmt.Rdp

open List Station

/-- Buffer and length of the messages pending on a connection. -/
def Conn.frames (conn : Conn) : List (Nat × Nat) := conn.pendList.map (fun mp => (mp.id, mp.len))

def Station.frames (rdp : Station) : List (Nat × Nat) :=
  (List.range rdp.nrOfNodes).flatMap (fun node => (rdp.conntable node).frames)

def isSmall (frame : Nat × Nat) : Bool := frame.2 ≤ smallDataSize

structure Pooled (rdp : Station) : Prop where
  buffers : (rdp.msgFreeList ++ rdp.frames.map Prod.fst).Perm
    (List.range (rdp.nrOfNodes * maxWindowSize))
  smalls : rdp.sMsgFree + rdp.frames.countP isSmall = rdp.nrOfNodes * maxWindowSize
  unknown : ∀ node ≥ rdp.nrOfNodes, (rdp.conntable node).pendList = []
  mallocs : ∀ ok ∈ rdp.mallocs, ok = true

variable {rdp : Station} {node : Nat}

theorem frames_modify (known : node < rdp.nrOfNodes) :
    ∃ others, rdp.frames.Perm ((rdp.conntable node).frames ++ others) ∧
      ∀ change, (rdp.modify node change).frames.Perm
        ((change (rdp.conntable node)).frames ++ others) := by
  have split := perm_cons_erase (mem_range.mpr known)
  refine ⟨((List.range rdp.nrOfNodes).erase node).flatMap
    (fun other => (rdp.conntable other).frames), ?_, ?_⟩
  · exact split.flatMap_right _
  · intro change
    have parts := split.flatMap_right
      (fun other => ((rdp.modify node change).conntable other).frames)
    rw [flatMap_cons, modify_self] at parts
    have rest : ((List.range rdp.nrOfNodes).erase node).flatMap
        (fun other => ((rdp.modify node change).conntable other).frames) =
          ((List.range rdp.nrOfNodes).erase node).flatMap
            (fun other => (rdp.conntable other).frames) := by
      apply flatMap_congr
      intro other member
      rw [modify_other]
      exact ((nodup_range).mem_erase_iff.mp member).1
    rw [rest] at parts
    exact parts

theorem frames_congr {before after : Station}
    (nrOfNodes : after.nrOfNodes = before.nrOfNodes)
    (frames : ∀ node, (after.conntable node).frames =
      (before.conntable node).frames) : after.frames = before.frames := by
  simp only [Station.frames, nrOfNodes, frames]

theorem Conn.frames_eq_nil {conn : Conn} : conn.frames = [] ↔ conn.pendList = [] := by
  simp [Conn.frames]

namespace Pooled

theorem congr {before after : Station} (pooled : Pooled before)
    (nrOfNodes : after.nrOfNodes = before.nrOfNodes)
    (msgFreeList : after.msgFreeList = before.msgFreeList)
    (sMsgFree : after.sMsgFree = before.sMsgFree)
    (mallocs : after.mallocs = before.mallocs)
    (frames : ∀ node, (after.conntable node).frames =
      (before.conntable node).frames) : Pooled after := by
  constructor
  · rw [msgFreeList, frames_congr nrOfNodes frames, nrOfNodes]
    exact pooled.buffers
  · rw [sMsgFree, frames_congr nrOfNodes frames, nrOfNodes]
    exact pooled.smalls
  · intro node beyond
    rw [← Conn.frames_eq_nil, frames, Conn.frames_eq_nil]
    exact pooled.unknown node (nrOfNodes ▸ beyond)
  · rw [mallocs]
    exact pooled.mallocs

theorem modify {rdp : Station} (pooled : Pooled rdp) (node : Nat)
    {change : Conn → Conn}
    (frames : (change (rdp.conntable node)).frames =
      (rdp.conntable node).frames) : Pooled (rdp.modify node change) := by
  refine @congr rdp (rdp.modify node change) pooled rfl rfl rfl rfl ?_
  intro other
  by_cases same : other = node
  · rw [same, modify_self, frames]
  · rw [modify_other same]

/-- The pending messages leave a small frame for each free buffer. -/
theorem length (pooled : Pooled rdp) :
    rdp.msgFreeList.length + rdp.frames.length = rdp.nrOfNodes * maxWindowSize := by
  have total := pooled.buffers.length_eq
  simpa using total

theorem getFrame_ok (pooled : Pooled rdp) {id : Nat} {rest : List Nat}
    (free : rdp.msgFreeList = id :: rest) (length : Nat) :
    (getFrame length rdp).1 = true := by
  have total := pooled.length
  have smalls := pooled.smalls
  have bound := countP_le_length (p := isSmall) (l := rdp.frames)
  rw [free, length_cons] at total
  rw [getFrame]
  split
  · rw [if_neg (by omega)]
  · cases scripted : rdp.mallocs with
    | nil => rfl
    | cons ok others =>
      simp only [head?_cons, Option.getD_some]
      exact pooled.mallocs ok (by simp [scripted])

theorem enqueue (pooled : Pooled rdp) {id : Nat} {buf : List UInt8}
    {rest : List Nat} {small : Nat} {mallocs : List Bool}
    (known : node < rdp.nrOfNodes) (free : rdp.msgFreeList = id :: rest)
    (framed : getFrame buf.length rdp =
      (true, { rdp with sMsgFree := small, mallocs := mallocs })) :
    Pooled (enqueue node id buf
      { rdp with
        msgFreeList := rest, sMsgFree := small, mallocs := mallocs }) := by
  rcases frames_modify known with ⟨others, before, after⟩
  have queued : (Rdp.enqueue node id buf
      { rdp with
        msgFreeList := rest, sMsgFree := small
        mallocs := mallocs }).frames.Perm
        ((id, buf.length) :: rdp.frames) := by
    have changed := after (fun conn => conn.queue ((rdp.conntable node).newMsg id buf))
    have appended : ((rdp.conntable node).queue ((rdp.conntable node).newMsg id buf)).frames =
          (rdp.conntable node).frames ++ [(id, buf.length)] := by
      rw [Conn.frames, Conn.queue_pendList, map_append]
      rfl
    rw [appended] at changed
    refine changed.trans (List.Perm.trans ?_ (before.symm.cons _))
    rw [append_assoc]
    exact perm_middle
  have pool := pooled.buffers
  have smalls := pooled.smalls
  rw [free] at pool
  constructor
  · refine List.Perm.trans ?_ pool
    have ids := queued.map Prod.fst
    refine (ids.append_left rest).trans ?_
    exact perm_middle
  · rw [queued.countP_eq]
    have spent : small + (if isSmall (id, buf.length) then 1 else 0) = rdp.sMsgFree := by
      rw [getFrame] at framed
      by_cases fits : buf.length ≤ smallDataSize
      · rw [if_pos fits] at framed
        split at framed
        · cases framed
        · have result := congrArg Station.sMsgFree (Prod.mk.inj framed).2
          simp only at result
          rw [if_pos (by simpa [isSmall] using fits)]
          omega
      · rw [if_neg fits] at framed
        have result := congrArg Station.sMsgFree (Prod.mk.inj framed).2
        simp only at result
        rw [if_neg (by simpa [isSmall] using fits)]
        omega
    rw [countP_cons]
    have total : small + (rdp.frames.countP isSmall +
        if isSmall (id, buf.length) = true then 1 else 0) = rdp.nrOfNodes * maxWindowSize := by
      omega
    exact total
  · intro other beyond
    have different : other ≠ node := by
      intro same
      exact absurd known (Nat.not_lt.mpr (same ▸ beyond))
    have kept := modify_other different rdp
      (fun conn => conn.queue ((rdp.conntable node).newMsg id buf))
    exact (congrArg Conn.pendList kept).trans (pooled.unknown other beyond)
  · intro ok member
    apply pooled.mallocs
    have scripted : mallocs = rdp.mallocs ∨ mallocs = rdp.mallocs.tail := by
      rw [getFrame] at framed
      split at framed
      · split at framed
        · cases framed
        · exact .inl (congrArg Station.mallocs (Prod.mk.inj framed).2).symm
      · exact .inr (congrArg Station.mallocs (Prod.mk.inj framed).2).symm
    rcases scripted with same | tail
    · exact same ▸ member
    · exact mem_of_mem_tail (tail ▸ member)

theorem release (pooled : Pooled rdp) {msg : MsgBuf}
    (pending : msg ∈ (rdp.conntable node).pendList) :
    Pooled (release node msg rdp) := by
  have known : node < rdp.nrOfNodes := by
    by_contra beyond
    rw [pooled.unknown node (Nat.le_of_not_lt beyond)] at pending
    exact absurd pending not_mem_nil
  rcases frames_modify known with ⟨others, before, after⟩
  have released : rdp.frames.Perm ((msg.id, msg.len) :: (Rdp.release node msg rdp).frames) := by
    have changed := after (Conn.drop msg)
    have erased := (perm_cons_erase pending).map (fun mp => (mp.id, mp.len))
    have same : (Rdp.release node msg rdp).frames = (rdp.modify node (Conn.drop msg)).frames := by
      apply @frames_congr (rdp.modify node (Conn.drop msg)) (Rdp.release node msg rdp) rfl
      intro other
      rw [release_conntable]
    rw [same]
    exact (before.trans (erased.append_right others)).trans (changed.cons _).symm
  have pool := pooled.buffers
  have smalls := pooled.smalls
  constructor
  · refine List.Perm.trans ?_ pool
    have ids := released.map Prod.fst
    refine List.Perm.trans ?_ (ids.append_left rdp.msgFreeList).symm
    simp only [Rdp.release, putMsg, Station.modify, append_assoc, singleton_append, map_cons]
    exact List.Perm.refl _
  · rw [released.countP_eq, countP_cons] at smalls
    have returned : (Rdp.release node msg rdp).sMsgFree =
        rdp.sMsgFree + (if isSmall (msg.id, msg.len) = true then 1 else 0) := by
      simp only [Rdp.release, putMsg, Station.modify, isSmall, decide_eq_true_eq]
      by_cases large : msg.len > smallDataSize
      · rw [if_pos large, if_neg (by omega)]
        rfl
      · rw [if_neg large, if_pos (by omega)]
    have nrOfNodes : (Rdp.release node msg rdp).nrOfNodes = rdp.nrOfNodes := rfl
    rw [returned, nrOfNodes]
    omega
  · intro other beyond
    have different : other ≠ node := by
      intro same
      exact absurd known (Nat.not_lt.mpr (same ▸ beyond))
    rw [release_conntable, modify_other different]
    exact pooled.unknown other beyond
  · exact pooled.mallocs

theorem rdpInit (nodes : Nat) (hosts : Nat → Nat) (localID : Nat)
    (clock : Nat → Nat) (randoms : Nat → SeqNo) :
    Pooled (rdpInit nodes hosts localID clock randoms) := by
  have empty : (Rdp.rdpInit nodes hosts localID clock randoms).frames = [] := by
    simp [Station.frames, Rdp.rdpInit, Conn.frames]
  constructor
  · rw [empty]
    simp [Rdp.rdpInit]
  · rw [empty]
    simp [Rdp.rdpInit]
  · intro node _
    rfl
  · intro ok member
    exact absurd member not_mem_nil

end Pooled

end Psmgmt.Rdp
