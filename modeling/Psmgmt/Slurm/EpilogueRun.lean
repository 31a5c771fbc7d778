import Psmgmt.Slurm.Epilogue

/-!
# The finalize script is started with the last entry

Every handler that sets an entry looks whether it was the last one, apart from
the one of a node that goes down.
-/

namespace Psmgmt.Epilogue

open Triple List Option

/-! ## What all actions keep -/

/-- What holds of an allocation at any time. -/
structure AllocKept (alloc : Alloc) (starts : List (List Bool)) : Prop where
  length : alloc.epilogRes.length = alloc.nodes.length
  count : alloc.epilogCnt = alloc.epilogRes.count true
  fin : alloc.epilogFin = true ↔ starts ≠ []
  full : starts ≠ [] → AllSet alloc

structure Kept (daemon : Daemon) : Prop where
  alloc : ∀ alloc, daemon.alloc = some alloc → AllocKept alloc daemon.starts
  once : daemon.starts.length ≤ 1
  last : ∀ res ∈ daemon.starts, ∀ entry ∈ res, entry = true

/-- With all entries set the script has been started. -/
def Finished (daemon : Daemon) : Prop :=
  ∀ alloc, daemon.alloc = some alloc → AllSet alloc → daemon.starts ≠ []

/-- Nothing is left to do. -/
def Settled (daemon : Daemon) : Prop := Kept daemon ∧ Finished daemon

/-- The allocation can be accessed. -/
def Present (daemon : Daemon) : Prop := ∃ alloc, daemon.alloc = some alloc

variable {alloc : Alloc} {starts : List (List Bool)} {daemon : Daemon}
  {before : Daemon → Prop} {index node : Nat}

theorem allSet_iff (kept : AllocKept alloc starts) :
    AllSet alloc ↔ alloc.nodes.length = alloc.epilogCnt := by
  rw [kept.count, ← kept.length, eq_comm, count_eq_length]
  exact ⟨fun all res member => (all res member).symm,
    fun all res member => (all res member).symm⟩

theorem Settled.right (settled : Settled daemon) : Right daemon where
  count := by
    intro alloc present
    have kept := settled.1.alloc alloc present
    refine ⟨kept.count, ?_⟩
    rw [kept.count, ← kept.length]
    exact count_le_length
  once := settled.1.once
  last := settled.1.last
  started := fun alloc present => ⟨settled.2 alloc present, (settled.1.alloc alloc present).full⟩

/-! ## Accesses -/

theorem holds_deref (present : ∀ daemon, before daemon → Present daemon) :
    Holds before deref fun alloc daemon => before daemon ∧ daemon.alloc = some alloc := by
  intro daemon start
  obtain ⟨alloc, is_alloc⟩ := present daemon start
  refine ⟨alloc, daemon, ?_, start, is_alloc⟩
  simp only [deref, is_alloc]

theorem holds_update {change : Alloc → Alloc} {after : Daemon → Prop}
    (changes : ∀ daemon alloc, before daemon → daemon.alloc = some alloc →
      after { daemon with alloc := some (change alloc) })
    (present : ∀ daemon, before daemon → Present daemon) :
    Holds before (update change) fun _ => after := by
  intro daemon start
  obtain ⟨alloc, is_alloc⟩ := present daemon start
  refine ⟨(), _, ?_, changes daemon alloc start is_alloc⟩
  simp only [update, is_alloc]

theorem holds_find :
    Holds before find fun found daemon => before daemon ∧ found = daemon.alloc.isSome :=
  fun daemon start => ⟨_, daemon, rfl, start, rfl⟩

theorem holds_allocDelete : Holds Kept allocDelete fun _ => Settled := by
  intro daemon kept
  refine ⟨(), _, rfl, ⟨?_, kept.once, kept.last⟩, ?_⟩
  · intro alloc none
    exact absurd none (by simp)
  · intro alloc none
    exact absurd none (by simp)

theorem holds_found {action : Access Unit} {after : Daemon → Prop}
    (holds : Holds (fun daemon => before daemon ∧ Present daemon) action
      fun _ => after)
    (absent : ∀ daemon, before daemon → daemon.alloc = none → after daemon) :
    Holds before (do if ← find then action else pure ()) fun _ => after := by
  refine holds_find.bind fun found => ?_
  cases found with
  | false =>
    refine of_pure fun daemon start => absent daemon start.1 ?_
    simpa using start.2.symm
  | true =>
    refine holds.weaken (fun daemon start => ⟨start.1, ?_⟩)
      fun _ _ good => good
    exact isSome_iff_exists.mp start.2.symm

/-! ## Setting entries -/

theorem count_set {res : List Bool} (unset : res[index]? = some false) :
    (res.set index true).count true = res.count true + 1 := by
  induction res generalizing index with
  | nil => exact absurd unset (by simp)
  | cons head res induction =>
    cases index with
    | zero =>
      simp only [getElem?_cons_zero, some_inj] at unset
      simp [unset]
    | succ index =>
      rw [getElem?_cons_succ] at unset
      rw [set_cons_succ, count_cons, count_cons,
        induction unset]
      omega

theorem AllocKept.set (kept : AllocKept alloc starts) (index : Nat) :
    AllocKept (setEpilogRes index alloc) starts := by
  unfold setEpilogRes
  split
  · rename_i unset
    have none : starts = [] := by
      by_contra started
      have all := kept.full started false (mem_of_getElem? unset)
      exact absurd all (by simp)
    refine ⟨?_, ?_, kept.fin, fun started => absurd none started⟩
    · simp only [length_set]
      exact kept.length
    · simp only [count_set unset, kept.count]
  · exact kept

theorem Kept.change {daemon : Daemon} (kept : Kept daemon) {alloc : Alloc}
    {change : Alloc → Alloc} (present : daemon.alloc = some alloc)
    (changed : AllocKept alloc daemon.starts → AllocKept (change alloc) daemon.starts) :
    Kept { daemon with alloc := some (change alloc) } where
  alloc := by
    intro other same
    rw [some_inj] at same
    rw [← same]
    exact changed (kept.alloc alloc present)
  once := kept.once
  last := kept.last

theorem holds_set (index : Nat) : Holds (fun daemon => Kept daemon ∧ Present daemon)
      (update (setEpilogRes index))
      fun _ daemon => Kept daemon ∧ Present daemon :=
  holds_update (fun _ _ start present =>
      ⟨start.1.change present fun kept => kept.set index, _, rfl⟩)
    fun _ start => start.2

theorem holds_other {change : Alloc → Alloc}
    (same : ∀ alloc, (change alloc).nodes = alloc.nodes
      ∧ (change alloc).epilogRes = alloc.epilogRes
      ∧ (change alloc).epilogCnt = alloc.epilogCnt
      ∧ (change alloc).epilogFin = alloc.epilogFin) :
    Holds (fun daemon => Settled daemon ∧ Present daemon) (update change)
      fun _ daemon => Settled daemon ∧ Present daemon := by
  refine holds_update (fun daemon alloc start present => ?_)
    fun _ start => start.2
  obtain ⟨nodes, res, cnt, fin⟩ := same alloc
  refine ⟨⟨start.1.1.change present fun kept => ?_, ?_⟩, _, rfl⟩
  · refine ⟨?_, ?_, ?_, ?_⟩
    · rw [nodes, res]
      exact kept.length
    · rw [cnt, res]
      exact kept.count
    · rw [fin]
      exact kept.fin
    · intro started entry member
      rw [res] at member
      exact kept.full started entry member
  · intro other is_other all
    rw [some_inj] at is_other
    rw [← is_other, AllSet, res] at all
    exact start.1.2 alloc present all

/-! ## Finalizing -/

attribute [local simp] StateT.bind Except.bind StateT.pure Except.pure

theorem holds_finalize (starts : Bool) : Holds (fun daemon => Kept daemon ∧ Present daemon)
      (finalizeEpilogue starts)
      fun deleted daemon => Settled daemon ∧ (deleted = false → Present daemon) := by
  intro daemon ⟨kept, alloc, present⟩
  have here := kept.alloc alloc present
  by_cases due : alloc.epilogFin = false ∧ alloc.nodes.length = alloc.epilogCnt
  · have unstarted : daemon.starts = [] := by
      by_contra started
      have fin := here.fin.mpr started
      rw [due.1] at fin
      exact absurd fin (by simp)
    have all := (allSet_iff here).mpr due.2
    have last : ∀ res ∈ daemon.starts ++ [alloc.epilogRes], ∀ entry ∈ res, entry = true := by
      intro res member
      rw [unstarted, nil_append, mem_singleton] at member
      rw [member]
      exact all
    have started : daemon.starts ++ [alloc.epilogRes] ≠ [] := by simp
    have settled : Settled
        { alloc := some { alloc with epilogFin := true }
          starts := daemon.starts ++ [alloc.epilogRes] } := by
      refine ⟨⟨?_, ?_, last⟩, fun _ _ _ => started⟩
      · intro other same
        rw [some_inj] at same
        rw [← same]
        exact ⟨here.length, here.count, ⟨fun _ => started, fun _ => rfl⟩,
          fun _ => all⟩
      · rw [unstarted]
        exact Nat.le_refl 1
    have gone : Settled { alloc := none, starts := daemon.starts ++ [alloc.epilogRes] } := by
      refine ⟨⟨fun other same => absurd same (by simp), settled.1.once, last⟩,
        fun other same => absurd same (by simp)⟩
    cases starts with
    | true =>
      refine ⟨false, _, ?_, settled, fun _ => ⟨_, rfl⟩⟩
      simp [finalizeEpilogue, deref, update, execEpilogueFin, present, due, bind, pure]
    | false =>
      by_cases terminated : alloc.terminate = 0
      · refine ⟨false, _, ?_, settled, fun _ => ⟨_, rfl⟩⟩
        simp [finalizeEpilogue, deref, update, execEpilogueFin, present, due, bind, pure, terminated]
      · refine ⟨true, _, ?_, gone, fun same => absurd same (by simp)⟩
        simp [finalizeEpilogue, deref, update, execEpilogueFin, present, due, bind, pure, terminated, allocDelete]
  · refine ⟨false, daemon, ?_, ⟨kept, ?_⟩, fun _ => ⟨alloc, present⟩⟩
    · simp [finalizeEpilogue, deref, present, due, bind, pure]
    · intro other same all
      rw [present, some_inj] at same
      rw [← same] at all
      by_contra unstarted
      apply due
      refine ⟨?_, (allSet_iff here).mp all⟩
      rw [Bool.eq_false_iff]
      exact fun fin => here.fin.mp fin unstarted

/-! ## Handlers -/

/-- An action that leaves nothing to do, whatever happened before. -/
def Settles (action : Access Unit) : Prop := Holds Settled action fun _ => Settled

theorem holds_close (starts : Bool) : Holds (fun daemon => Kept daemon ∧ Present daemon)
      (finalizeEpilogue starts >>= fun _ => pure ()) fun _ => Settled :=
  (holds_finalize starts).bind fun _ => of_pure fun _ done => done.1

theorem settles_found {action : Access Unit}
    (holds : Holds (fun daemon => Settled daemon ∧ Present daemon) action
      fun _ => Settled) :
    Settles (do if ← find then action else pure ()) :=
  holds_found holds fun _ settled _ => settled

theorem settles_dropped (starts : Bool) (dest : Nat) :
    Settles (handleDroppedEpilogue starts dest) := by
  apply settles_found
  refine (holds_deref fun _ start => start.2).bind fun alloc => ?_
  cases getSlurmNodeID alloc.nodes dest with
  | none => exact of_pure fun _ start => start.1.1
  | some localID =>
    refine Holds.bind ((holds_set localID).weaken
      (fun _ start => ⟨start.1.1.1, start.1.2⟩) fun _ _ good => good) ?_
    exact fun _ => holds_close starts

theorem settles_stateRes (starts : Bool) (sender res : Nat) :
    Settles (handleEpilogueStateRes starts sender res) := by
  apply settles_found
  refine (holds_deref fun _ start => start.2).bind fun alloc => ?_
  cases getSlurmNodeID alloc.nodes sender with
  | none => exact of_pure fun _ start => start.1.1
  | some localID =>
    have start : ∀ daemon, (Settled daemon ∧ Present daemon)
        ∧ daemon.alloc = some alloc → Kept daemon ∧ Present daemon :=
      fun _ start => ⟨start.1.1.1, start.1.2⟩
    refine Holds.bind (Holds.weaken (Holds.whenever
      (fun _ => holds_set localID) fun _ good => good) start
        fun _ _ good => good) ?_
    exact fun _ => holds_close starts

theorem settles_pelogueRes (starts : Bool) (sender : Nat)
    (pending prologue : Bool) :
    Settles (handlePElogueRes starts sender pending prologue) := by
  apply settles_found
  refine (holds_deref fun _ start => start.2).bind fun alloc => ?_
  cases getSlurmNodeID alloc.nodes sender with
  | none => exact of_pure fun _ start => start.1.1
  | some localID =>
    cases pending with
    | true => exact of_pure fun _ start => start.1.1
    | false =>
      cases prologue with
      | true =>
        refine Holds.weaken (holds_other fun _ => ⟨rfl, rfl, rfl, rfl⟩) ?_ ?_
        · exact fun _ start => start.1
        · exact fun _ _ good => good.1
      | false =>
        refine Holds.bind ((holds_set localID).weaken (fun _ start => ⟨start.1.1.1, start.1.2⟩)
            fun _ _ good => good) ?_
        exact fun _ => holds_close starts

theorem settles_stateReq (starts : Bool) (sender : Nat) :
    Settles (handleEpilogueStateReq starts sender) := by
  refine holds_find.bind fun found => ?_
  cases found with
  | false =>
    exact (settles_stateRes starts sender 0).weaken (fun _ start => start.1) fun _ _ good => good
  | true =>
    refine Holds.bind (holds_deref fun daemon start =>
      isSome_iff_exists.mp start.2.symm) fun alloc => ?_
    refine Holds.bind (Holds.weaken (Holds.whenever
      (fun _ => holds_other fun _ => ⟨rfl, rfl, rfl, rfl⟩)
        fun _ good => good)
      (fun daemon start => ⟨start.1.1, _, start.2⟩)
        fun _ _ good => good) ?_
    exact fun _ => (settles_stateRes starts sender _).weaken
      (fun _ start => start.1) fun _ _ good => good

theorem settles_dropAll (starts : Bool) (down : Nat → Bool)
    (dests : List Nat) : Settles (dropAll starts down dests) := by
  induction dests with
  | nil => exact of_pure fun _ settled => settled
  | cons dest dests induction =>
    refine Holds.bind (Holds.whenever (fun _ => settles_dropped starts dest) fun _ good => good) ?_
    exact fun _ => induction

theorem settles_sendReq (starts : Bool) (down : Nat → Bool) (me : Nat) :
    Holds (fun daemon => Settled daemon ∧ Present daemon)
      (sendEpilogueStateReq starts down me) fun _ => Settled := by
  refine (holds_deref fun _ start => start.2).bind fun alloc => ?_
  refine Holds.bind ((settles_dropAll starts down _).weaken
    (fun _ start => start.1.1) fun _ _ good => good) ?_
  exact fun _ => Holds.whenever (fun _ => settles_stateReq starts me)
    fun _ good => good

theorem settles_terminateAlloc (starts : Bool) (down : Nat → Bool) (me : Nat)
    (signalled : Bool) :
    Holds (fun daemon => Settled daemon ∧ Present daemon)
      (terminateAlloc starts down me signalled) fun _ => Settled := by
  have epilogue : ∀ alloc : Alloc, Holds (fun daemon =>
      (Settled daemon ∧ Present daemon) ∧ daemon.alloc = some alloc)
        (update fun alloc => { alloc with state := .epilogue })
        fun _ => Settled := by
    intro alloc
    refine Holds.weaken (holds_other fun _ => ⟨rfl, rfl, rfl, rfl⟩) ?_ ?_
    · exact fun _ start => start.1
    · exact fun _ _ good => good.1
  have close : ∀ alloc : Alloc, Holds (fun daemon =>
      (Settled daemon ∧ Present daemon) ∧ daemon.alloc = some alloc)
        (do
          let deleted ← finalizeEpilogue starts
          if deleted then pure ()
          else
            let _ ← deref
            sendEpilogueStateReq starts down me) fun _ => Settled := by
    intro alloc
    refine Holds.bind ((holds_finalize starts).weaken
      (fun _ start => ⟨start.1.1.1, start.1.2⟩) fun _ _ good => good) ?_
    intro deleted
    cases deleted with
    | true => exact of_pure fun _ start => start.1
    | false =>
      refine Holds.bind (holds_deref fun _ start => start.2 rfl) fun _ => ?_
      exact (settles_sendReq starts down me).weaken
        (fun _ start => ⟨start.1.1, start.1.2 rfl⟩) fun _ _ good => good
  refine (holds_deref fun _ start => start.2).bind fun alloc => ?_
  cases alloc.state with
  | running =>
    cases signalled with
    | true => exact of_pure fun _ start => start.1.1
    | false => exact epilogue alloc
  | epilogue => exact of_pure fun _ start => start.1.1
  | prologue => exact of_pure fun _ start => start.1.1
  | epilogueFinish => exact close alloc
  | exit => exact close alloc
  | prologueFinish => exact epilogue alloc
  | init => exact epilogue alloc

theorem settles_terminate (starts : Bool) (down : Nat → Bool) (me : Nat)
    (signalled : Bool) (maxTermReq : Nat) :
    Settles (handleTerminate starts down me signalled maxTermReq) := by
  apply settles_found
  refine (holds_deref fun _ start => start.2).bind fun alloc => ?_
  split
  · refine Holds.bind (Holds.weaken
      (holds_other fun _ => ⟨rfl, rfl, rfl, rfl⟩) (fun _ start => start.1)
        fun _ _ good => good) fun _ => ?_
    split
    · exact holds_allocDelete.weaken (fun _ start => start.1.1)
        fun _ _ good => good
    · exact settles_terminateAlloc starts down me signalled
  · exact (settles_terminateAlloc starts down me signalled).weaken
      (fun _ start => start.1) fun _ _ good => good

theorem settles_scriptEnds : Settles epiFinCallback := by
  apply settles_found
  refine (holds_deref fun _ start => start.2).bind fun alloc => ?_
  exact Holds.whenever (fun _ => holds_allocDelete.weaken
    (fun _ start => start.1.1.1) fun _ _ good => good)
      fun _ start => start.1.1

/-! ## A node goes down -/

theorem getSlurmNodeID_lt {nodes : List Nat}
    (found : getSlurmNodeID nodes node = some index) :
    index < nodes.length := by
  unfold getSlurmNodeID at found
  split at found
  · rename_i inside
    rw [← some_inj.mp found]
    exact inside
  · exact absurd found (by simp)

def downed (index : Nat) (alloc : Alloc) : Alloc :=
  { setEpilogRes index alloc with nodeFail := true }

theorem nodeDown_absent (none : daemon.alloc = none) (node : Nat) :
    nodeDownAlloc node daemon = .ok ((), daemon) := by
  simp [nodeDownAlloc, find, none, bind, pure]

theorem nodeDown_other (present : daemon.alloc = some alloc)
    (other : getSlurmNodeID alloc.nodes node = none) :
    nodeDownAlloc node daemon = .ok ((), daemon) := by
  simp [nodeDownAlloc, find, deref, present, other, bind, pure]

theorem nodeDown_own (present : daemon.alloc = some alloc)
    (own : getSlurmNodeID alloc.nodes node = some index) :
    nodeDownAlloc node daemon = .ok ((), { daemon with alloc := some (downed index alloc) }) := by
  simp [nodeDownAlloc, find, deref, update, present, own, bind, downed]

theorem AllocKept.downed (kept : AllocKept alloc starts) (index : Nat) :
    AllocKept (downed index alloc) starts :=
  ⟨(kept.set index).length, (kept.set index).count, (kept.set index).fin, (kept.set index).full⟩

/-- All entries are set after the node has gone down. -/
theorem allSet_downed : AllSet (downed index alloc)
      ↔ ∀ other, other ≠ index → alloc.epilogRes[other]? ≠ some false := by
  unfold AllSet downed setEpilogRes
  by_cases unset : alloc.epilogRes[index]? = some false
  · simp only [if_pos unset]
    constructor
    · intro all other differs false_there
      have there : (alloc.epilogRes.set index true)[other]? = some false := by
        rw [getElem?_set_ne (Ne.symm differs)]
        exact false_there
      exact absurd (all false (mem_of_getElem? there)) (by simp)
    · intro others res member
      obtain ⟨place, there⟩ := mem_iff_getElem?.mp member
      by_cases same : place = index
      · rw [same, getElem?_set_self (List.getElem?_eq_some_iff.mp unset).1, some_inj] at there
        exact there.symm
      · rw [getElem?_set_ne (Ne.symm same)] at there
        cases res with
        | true => rfl
        | false => exact absurd there (others place same)
  · simp only [if_neg unset]
    constructor
    · intro all other _ false_there
      exact absurd (all false (mem_of_getElem? false_there)) (by simp)
    · intro others res member
      obtain ⟨place, there⟩ := mem_iff_getElem?.mp member
      cases res with
      | true => rfl
      | false =>
        by_cases same : place = index
        · rw [same] at there
          exact absurd there unset
        · exact absurd there (others place same)

theorem nodeDown_right (settled : Settled daemon) (node : Nat) :
    ∃ after, nodeDownAlloc node daemon = .ok ((), after)
      ∧ (Fits daemon (.nodeDown node) → Settled after)
      ∧ (Right after → Fits daemon (.nodeDown node)) := by
  cases present : daemon.alloc with
  | none =>
    refine ⟨daemon, nodeDown_absent present node, fun _ => settled, ?_⟩
    intro _ alloc is_alloc
    rw [present] at is_alloc
    exact absurd is_alloc (by simp)
  | some alloc =>
    cases own : getSlurmNodeID alloc.nodes node with
    | none =>
      refine ⟨daemon, nodeDown_other present own, fun _ => settled, ?_⟩
      intro _ other is_other index found
      rw [present, some_inj] at is_other
      rw [← is_other, own] at found
      exact absurd found (by simp)
    | some index =>
      have kept := settled.1.alloc alloc present
      refine ⟨_, nodeDown_own present own, fun fits => ?_, fun right => ?_⟩
      · refine ⟨settled.1.change present fun kept => kept.downed index, ?_⟩
        intro other is_other all
        rw [some_inj] at is_other
        rw [← is_other, allSet_downed] at all
        rcases fits alloc present index own with
          set | ⟨other, differs, unset⟩
        · apply settled.2 alloc present
          intro res member
          obtain ⟨place, there⟩ := mem_iff_getElem?.mp member
          cases res with
          | true => rfl
          | false =>
            by_cases same : place = index
            · rw [same, set] at there
              exact absurd there (by simp)
            · exact absurd there (all place same)
        · exact absurd unset (all other differs)
      · intro other is_other place found
        rw [present, some_inj] at is_other
        rw [← is_other] at found ⊢
        rw [own, some_inj] at found
        subst found
        by_contra bad
        simp only [not_or, not_exists, not_and] at bad
        have all : AllSet (downed index alloc) :=
          allSet_downed.mpr fun other differs => bad.2 other differs
        have started := (right.started _ rfl).mp all
        have inside : index < alloc.epilogRes.length := by
          rw [kept.length]
          exact getSlurmNodeID_lt own
        have before := kept.full started _ (getElem_mem inside)
        apply bad.1
        rw [getElem?_eq_getElem inside, before]

/-! ## Runs -/

theorem settled_start {nodes : List Nat} (some_node : nodes ≠ []) :
    Settled (Daemon.start nodes) := by
  refine ⟨⟨?_, Nat.zero_le 1, fun _ member => absurd member not_mem_nil⟩, ?_⟩
  · intro alloc is_alloc
    obtain rfl := some_inj.mp is_alloc
    refine ⟨length_map _, ?_, by simp [Daemon.start],
      fun started => absurd rfl started⟩
    symm
    rw [count_eq_zero]
    intro member
    obtain ⟨node, -, unset⟩ := mem_map.mp member
    exact absurd unset (by simp)
  · intro alloc is_alloc all
    obtain rfl := some_inj.mp is_alloc
    obtain ⟨node, member⟩ := exists_mem_of_ne_nil nodes some_node
    exact absurd (all false (mem_map.mpr ⟨node, member, rfl⟩)) (by simp)

/-- No handler accesses a deleted allocation, and it leaves the count right
exactly if it fits. -/
theorem handle_right (settled : Settled daemon) (event : Event) :
    ∃ after, handle event daemon = .ok ((), after) ∧ (Fits daemon event → Settled after) ∧
      (Right after → Fits daemon event) := by
  have of_settles : ∀ action : Access Unit, Settles action →
      ∃ after, action daemon = .ok ((), after) ∧ (True → Settled after) ∧ (Right after → True) := by
    intro action settles
    obtain ⟨_, after, ended, good⟩ := settles daemon settled
    exact ⟨after, ended, fun _ => good, fun _ => trivial⟩
  cases event with
  | pelogueRes starts sender pending prologue =>
    exact of_settles _ (settles_pelogueRes starts sender pending prologue)
  | stateRes starts sender res => exact of_settles _ (settles_stateRes starts sender res)
  | dropped starts dest => exact of_settles _ (settles_dropped starts dest)
  | nodeDown node => exact nodeDown_right settled node
  | terminate starts down me signalled maxTermReq =>
    exact of_settles _ (settles_terminate starts down me signalled maxTermReq)
  | scriptEnds => exact of_settles _ settles_scriptEnds
  | state state =>
    apply of_settles
    refine holds_find.bind fun found => ?_
    refine Holds.whenever (fun is_found => ?_) fun _ start => start.1
    refine Holds.weaken (holds_other fun _ => ⟨rfl, rfl, rfl, rfl⟩)
      (fun daemon start => ⟨start.1, ?_⟩) fun _ _ good => good.1
    exact isSome_iff_exists.mp (start.2.symm.trans is_found)
  | delete =>
    exact of_settles _ (holds_allocDelete.weaken (fun _ start => start.1) fun _ _ good => good)

theorem settled_invariant : fittingSystem.Invariant Settled where
  initial := by
    rintro daemon ⟨nodes, some_node, rfl⟩
    exact settled_start some_node
  step := by
    rintro before after settled ⟨event, fits, handled⟩
    obtain ⟨last, ended, good, -⟩ := handle_right settled event
    rw [handled] at ended
    obtain rfl := (Prod.mk.inj (Except.ok.inj ended)).2
    exact good fits

/-- In every run in which no node going down sets the last entry, epilogues are
counted right; no event accesses a deleted allocation, and it leaves the count
right exactly if it fits. -/
theorem epilogues_counted {daemon : Daemon}
    (reachable : fittingSystem.Reachable daemon) :
    Right daemon ∧ ∀ event, ∃ after, handle event daemon = .ok ((), after)
      ∧ (Right after ↔ Fits daemon event) := by
  have settled := settled_invariant.reachable reachable
  refine ⟨settled.right, fun event => ?_⟩
  obtain ⟨after, ended, good, bad⟩ := handle_right settled event
  exact ⟨after, ended, bad, fun fits => (good fits).right⟩

/-- Two nodes, the second one of which goes down first. -/
theorem epilogues_counted_two : ∃ daemon : Daemon,
    daemon.starts = [[true, true]] ∧ Right daemon := by
  have start : fittingSystem.Reachable (Daemon.start [1, 2]) :=
    .initial ⟨[1, 2], by simp, rfl⟩
  have down := start.step ⟨.nodeDown 2, fun alloc is_alloc index found =>
    .inr ⟨0, by
      obtain rfl := some_inj.mp is_alloc
      obtain rfl := some_inj.mp found
      decide, by
      obtain rfl := some_inj.mp is_alloc
      rfl⟩, rfl⟩
  have finished := down.step ⟨.pelogueRes true 1 false false, trivial, rfl⟩
  exact ⟨_, rfl, (epilogues_counted finished).1⟩

/-- The last node goes down: no script is started. -/
theorem not_epilogues_counted : ¬∀ daemon : Daemon,
    epilogueSystem.Reachable daemon → Right daemon := by
  intro claim
  have start : epilogueSystem.Reachable (Daemon.start [1, 2]) :=
    .initial ⟨[1, 2], by simp, rfl⟩
  have finished := start.step ⟨.pelogueRes true 1 false false, rfl⟩
  have down := finished.step ⟨.nodeDown 2, rfl⟩
  have right := claim _ down
  refine (right.started _ rfl).mp ?_ rfl
  intro res member
  have set : res ∈ [true, true] := member
  simpa using set

end Psmgmt.Epilogue
