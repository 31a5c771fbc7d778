import Psmgmt.Rdp.PendingList

/-!
# Messages that `Rsendto()` does not take

The tests `Rsendto()` makes before it adds a message to the pending list.  All of
them leave RDP as it was but the last one: if there is no frame for a message,
its buffer is not given back.
-/

namespace Psmgmt.Rdp

def ClosedRecently (node : Nat) (rdp : Station) : Prop :=
  (rdp.conntable node).state = .closed ∧ (rdp.conntable node).closed ≠ 0 ∧
    gettimeofday rdp < (rdp.conntable node).closed

/-- The tests that come before a message buffer is taken. -/
def RefusedEarly (node : Nat) (buf : List UInt8) (rdp : Station) : Prop :=
  node ≥ rdp.nrOfNodes ∨
    ((rdp.conntable node).addr = inaddrAny ∨ (rdp.conntable node).addr = inaddrNone) ∨
    (rdp.conntable node).window = 0 ∨ buf.length > maxDataSize ∨ ClosedRecently node rdp

/-- A message that is not added to the pending list. -/
def Refused (node : Nat) (buf : List UInt8) (rdp : Station) : Prop :=
  RefusedEarly node buf rdp ∨ rdp.msgFreeList = [] ∨ (getFrame buf.length rdp).1 = false

/-- There is a buffer for the message, but no frame. -/
def Leaks (node : Nat) (buf : List UInt8) (rdp : Station) : Prop :=
  ¬ RefusedEarly node buf rdp ∧ rdp.msgFreeList ≠ [] ∧ (getFrame buf.length rdp).1 = false

/-- The connections and the free buffers are what they were, apart from an
expired closed timer. -/
structure Unchanged (node : Nat) (before after : Station) : Prop where
  conntable : ∀ other, after.conntable other = before.conntable other ∨
    (other = node ∧ ¬ gettimeofday before < (before.conntable node).closed ∧
      after.conntable node = { before.conntable node with closed := 0 })
  msgFreeList : after.msgFreeList.Perm before.msgFreeList
  sMsgFree : after.sMsgFree = before.sMsgFree

/-- The station behind the test of the closed timer. -/
def passClosed (node : Nat) (rdp : Station) : Station :=
  if (rdp.conntable node).state = .closed ∧ (rdp.conntable node).closed ≠ 0 then
    rdp.tick.modify node (fun conn => { conn with closed := 0 })
  else rdp

variable {rdp : Station} {node : Nat} {buf : List UInt8}

theorem passClosed_unchanged (node : Nat) (expired : ¬ ClosedRecently node rdp) :
    Unchanged node rdp (passClosed node rdp) := by
  unfold passClosed
  split
  · next timed =>
      refine ⟨?_, List.Perm.refl _, rfl⟩
      intro other
      by_cases own : other = node
      · right
        refine ⟨own, fun recent => expired ⟨timed.1, timed.2, recent⟩, ?_⟩
        exact Station.modify_self _ _ _
      · left
        exact Station.modify_other own _ _
  · exact ⟨fun _ => .inl rfl, List.Perm.refl _, rfl⟩

theorem passClosed_fields (node : Nat) (rdp : Station) :
    (passClosed node rdp).msgFreeList = rdp.msgFreeList ∧ (passClosed node rdp).sMsgFree =
      rdp.sMsgFree ∧ (passClosed node rdp).mallocs = rdp.mallocs ∧ (passClosed node rdp).sends =
      rdp.sends ∧ (passClosed node rdp).requests = rdp.requests ∧ (passClosed node rdp).trace =
      rdp.trace ∧ ((passClosed node rdp).conntable node).state = (rdp.conntable node).state ∧
      ((passClosed node rdp).conntable node).addr = (rdp.conntable node).addr ∧
      ((passClosed node rdp).conntable node).pendList = (rdp.conntable node).pendList := by
  unfold passClosed
  split
  · simp [Station.modify, Station.tick]
  · exact ⟨rfl, rfl, rfl, rfl, rfl, rfl, rfl, rfl, rfl⟩

section Send

variable (cb : RdpCallback)

/-- A message that fails an early test. -/
theorem rsendto_refusedEarly (refused : RefusedEarly node buf rdp) :
    ∃ eno after, rsendto cb node buf rdp = (.error eno, after) ∧
      (after = rdp ∨ after = rdp.tick) := by
  unfold rsendto
  split
  · exact ⟨_, _, rfl, .inl rfl⟩
  · next known =>
      split
      · exact ⟨_, _, rfl, .inl rfl⟩
      · next configured =>
          split
          · exact ⟨_, _, rfl, .inl rfl⟩
          · next window =>
              split
              · exact ⟨_, _, rfl, .inl rfl⟩
              · next size =>
                  rcases refused with unknown | unset | full | large | recent
                  · exact absurd unknown known
                  · exact absurd unset configured
                  · exact absurd full window
                  · exact absurd large size
                  · rw [if_pos ⟨recent.1, recent.2.1⟩]
                    simp only
                    rw [if_pos (show gettimeofday rdp <
                      (rdp.tick.conntable node).closed from recent.2.2)]
                    exact ⟨_, _, rfl, .inr rfl⟩

theorem rsendto_passed (passed : ¬ RefusedEarly node buf rdp) :
    rsendto cb node buf rdp = sendMessage cb node buf (passClosed node rdp) := by
  simp only [RefusedEarly, not_or] at passed
  rcases passed with ⟨known, configured, window, size, recent⟩
  unfold rsendto passClosed
  rw [if_neg known, if_neg (by tauto), if_neg window, if_neg size]
  split
  · next timed =>
      simp only
      rw [if_neg (show ¬ gettimeofday rdp < (rdp.tick.conntable node).closed from
          fun early => recent ⟨timed.1, timed.2, early⟩)]
  · rfl

theorem getFrame_passClosed (length node : Nat) (rdp : Station) :
    (getFrame length (passClosed node rdp)).1 = (getFrame length rdp).1 := by
  rcases passClosed_fields node rdp with ⟨_, small, mallocs, _⟩
  unfold getFrame
  rw [small, mallocs]
  split
  · split
    · rfl
    · rfl
  · rfl

/-- Without a buffer or a frame nothing is sent. -/
theorem sendMessage_refused {node : Nat} {buf : List UInt8} {rdp : Station}
    (refused : rdp.msgFreeList = [] ∨ (getFrame buf.length rdp).1 = false) :
    ∃ eno after, sendMessage cb node buf rdp = (.error eno, after) ∧ after.conntable = rdp.conntable
      ∧ after.trace = rdp.trace ∧ after.sMsgFree = rdp.sMsgFree ∧ after.msgFreeList =
      rdp.msgFreeList.tail := by
  rw [sendMessage, getMsg]
  rcases free : rdp.msgFreeList with _ | ⟨id, rest⟩
  · exact ⟨_, _, rfl, rfl, rfl, rfl, free⟩
  · have failed : (getFrame buf.length rdp).1 = false := by
      rcases refused with none | failed
      · rw [free] at none
        exact absurd none (by simp)
      · exact failed
    rcases getFrame_eq buf.length rdp with ⟨ok, small, mallocs, framed⟩
    have same := framed rdp.msgFreeList rdp.ticks rdp.conntable
    have taken := framed rest rdp.ticks rdp.conntable
    rw [show (getFrame buf.length rdp) = _ from same] at failed
    simp only at failed
    subst failed
    simp only [taken]
    refine ⟨_, _, rfl, rfl, rfl, ?_, rfl⟩
    have kept : (getFrame buf.length rdp).2.sMsgFree = rdp.sMsgFree := by
      have outcome : (getFrame buf.length rdp).1 = false := congrArg Prod.fst same
      unfold getFrame at outcome ⊢
      split
      · next fits =>
          rw [if_pos fits] at outcome
          split
          · rfl
          · next some =>
              rw [if_neg some] at outcome
              exact absurd outcome (by simp)
      · rfl
    rw [show (getFrame buf.length rdp) = _ from same] at kept
    exact kept

/-- A refused message makes `Rsendto()` return -1. -/
theorem rsendto_refused (refused : Refused node buf rdp) :
    ∃ eno after, rsendto cb node buf rdp = (.error eno, after) ∧ after.trace = rdp.trace ∧
      (after.conntable node).pendList = (rdp.conntable node).pendList := by
  by_cases early : RefusedEarly node buf rdp
  · rcases rsendto_refusedEarly cb early with ⟨eno, after, result, rfl | rfl⟩
    · exact ⟨eno, _, result, rfl, rfl⟩
    · exact ⟨eno, _, result, rfl, rfl⟩
  · rcases passClosed_fields node rdp with
      ⟨free, _, _, _, _, trace, _, _, pendList⟩
    have late := refused.resolve_left early
    rw [← free, ← getFrame_passClosed buf.length node rdp] at late
    rcases sendMessage_refused cb late with
      ⟨eno, after, result, conntable, kept, _⟩
    refine ⟨eno, after, ?_, kept.trans trace, ?_⟩
    · rw [rsendto_passed cb early, result]
    · rw [conntable, pendList]

end Send

/-- Two nodes, and the heap is used up. -/
def outOfMemory : Station :=
  { rdpInit 2 (fun _ => 1) 0 (fun _ => 0) (fun _ => 0) with
    mallocs := [false] }

end Psmgmt.Rdp
