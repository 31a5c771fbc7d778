import Psmgmt.Slurm.PackInfo
import Psmgmt.Library.Snoc

/-!
# Starting heterogeneous steps

Each message is under way, kept in the cache, still to be sent, or applied.  The
infos of a step are those of the messages applied to it, and since each of them
adds processes their number is reached with the last one.
-/

namespace Psmgmt.Slurm.PackInfo

open List Launch

/-! ## Lists of infos -/

theorem addJobCompInfo_perm (info : JobCompInfo) (infos : List JobCompInfo) :
    (addJobCompInfo info infos).Perm (info :: infos) := by
  induction infos with
  | nil => exact List.Perm.refl _
  | cons cur infos induction =>
    unfold addJobCompInfo
    split
    · exact List.Perm.refl _
    · exact (induction.cons cur).trans (List.Perm.swap info cur infos)

theorem addJobCompInfo_sorted (info : JobCompInfo) {infos : List JobCompInfo}
    (sorted : infos.Pairwise fun left right => left.firstRank ≤ right.firstRank) :
    (addJobCompInfo info infos).Pairwise fun left right => left.firstRank ≤ right.firstRank := by
  induction infos with
  | nil => exact pairwise_singleton _ _
  | cons cur infos induction =>
    obtain ⟨first, rest⟩ := pairwise_cons.mp sorted
    unfold addJobCompInfo
    split
    · next less =>
        apply pairwise_cons.mpr ⟨_, sorted⟩
        intro other member
        rcases mem_cons.mp member with rfl | later
        · exact Nat.le_of_lt less
        · exact Nat.le_trans (Nat.le_of_lt less) (first other later)
    · next less =>
        apply pairwise_cons.mpr ⟨_, induction rest⟩
        intro other member
        have inside := (addJobCompInfo_perm info infos).mem_iff.mp member
        rcases mem_cons.mp inside with rfl | later
        · exact Nat.le_of_not_lt less
        · exact first other later

/-- The processes of some messages. -/
def procs (wires : List Wire) : Nat := (wires.map fun wire => wire.msg.np).sum

theorem procs_perm {left right : List Wire} (perm : left.Perm right) : procs left = procs right :=
  (perm.map fun wire : Wire => wire.msg.np).sum_eq

theorem procs_cons (wire : Wire) (wires : List Wire) :
    procs (wire :: wires) = wire.msg.np + procs wires := rfl

/-- Some messages have as many processes as all of them only if they are all. -/
theorem procs_part {part whole : List Wire} (nodup : part.Nodup)
    (sub : part ⊆ whole) (positive : ∀ wire ∈ whole, 0 < wire.msg.np) :
    procs part ≤ procs whole ∧ (procs part = procs whole → whole.Perm part) := by
  induction part generalizing whole with
  | nil =>
    refine ⟨Nat.zero_le _, fun same => ?_⟩
    cases whole with
    | nil => exact List.Perm.refl _
    | cons wire wires =>
      have some_proc := positive wire mem_cons_self
      rw [procs_cons] at same
      have zero : procs [] = 0 := rfl
      omega
  | cons wire part induction =>
    obtain ⟨absent, nodup⟩ := nodup_cons.mp nodup
    have member : wire ∈ whole := sub mem_cons_self
    have perm : whole.Perm (wire :: whole.erase wire) := perm_cons_erase member
    have rest : part ⊆ whole.erase wire := by
      intro other inside
      apply (mem_erase_of_ne _).mpr (sub (mem_cons_of_mem _ inside))
      intro same
      exact absent (same ▸ inside)
    obtain ⟨bound, all⟩ := induction nodup rest fun other inside =>
      positive other (mem_of_mem_erase inside)
    rw [procs_perm perm, procs_cons, procs_cons]
    refine ⟨Nat.add_le_add_left bound _, fun same => ?_⟩
    exact perm.trans ((all (Nat.add_left_cancel same)).cons wire)

/-! ## Messages of a launch -/

variable {wire : Wire} {step : Step} {cached : Cached}
  {applied : List (Wire × Nat)} {key owner : Nat} {hID : HeadID}

variable {daemon : Daemon}

variable {cache rest : List Cached}

section Node

variable {node : Node}

theorem Launch.key_eq {launch : Launch} (member : wire ∈ launch.wires node) :
    wire.key = launch.step.key := by
  rcases mem_append.mp member with forwarded | own
  · obtain ⟨entry, -, rfl⟩ := mem_map.mp forwarded
    rfl
  · unfold Launch.own at own
    split at own
    · rw [mem_singleton.mp own]
    · exact absurd own not_mem_nil

theorem Launch.wires_nodup (launch : Launch) : (launch.wires node).Nodup := by
  have nums : (launch.forwarded.map Wire.num) = List.range' 0 launch.others.length := by
    unfold Launch.forwarded
    rw [map_map]
    exact zipIdx_map_snd 0 launch.others
  apply nodup_append.mpr
  refine ⟨List.Nodup.of_map Wire.num (nums ▸ nodup_range'), ?_, ?_⟩
  · unfold Launch.own
    split
    · exact nodup_singleton _
    · exact nodup_nil
  · intro left forwarded right own same
    have num : left.num ∈ launch.forwarded.map Wire.num := mem_map_of_mem forwarded
    rw [nums, mem_range'_1] at num
    unfold Launch.own at own
    split at own
    · rw [same, mem_singleton.mp own] at num
      simp at num
    · exact absurd own not_mem_nil

/-- Only a step that is led by the node has messages. -/
theorem Launch.Proper.leads {launch : Launch} (proper : launch.Proper node)
    (member : wire ∈ launch.wires node) : launch.leads = true := by
  by_contra none_
  have no : launch.leads = false := by simpa using none_
  have nothing : launch.wires node = [] := by
    simp [Launch.wires, Launch.forwarded, Launch.own, proper.plain no, no]
  rw [nothing] at member
  exact not_mem_nil member

/-- The messages of a step look it up. -/
theorem Launch.Proper.named {launch : Launch} (proper : launch.Proper node)
    (member : wire ∈ launch.wires node) :
    launch.step.named wire.msg.headID = true := by
  obtain ⟨packJobid, stepid, jobid⟩ := proper.ids wire member
  unfold Step.named InfoMsg.headID
  by_cases no_pack : launch.step.packJobid = noVal
  · simp [packJobid, stepid, no_pack, jobid no_pack]
  · simp [packJobid, stepid, no_pack]

theorem Launch.Proper.packID {launch : Launch} (proper : launch.Proper node)
    (member : wire ∈ launch.wires node) :
    wire.msg.headID.jobid = launch.step.packID := by
  obtain ⟨packJobid, stepid, jobid⟩ := proper.ids wire member
  unfold Step.packID InfoMsg.headID
  by_cases no_pack : launch.step.packJobid = noVal
  · simp [packJobid, no_pack, jobid no_pack]
  · simp [packJobid, no_pack]

theorem replays_of_named (named : step.named cached.hID = true) : cached.replays step = true := by
  unfold Step.named at named
  unfold Cached.replays
  simp only [Bool.or_eq_true, Bool.and_eq_true, decide_eq_true_eq] at named
  rcases named with ⟨jobid, stepid⟩ | ⟨⟨pack, jobid⟩, stepid⟩
  · simp [jobid, stepid]
  · simp [← jobid, stepid, show cached.hID.jobid ≠ noVal by
      rw [jobid]; simpa using pack]

theorem named_of_purged (purged : cached.purged step.hID = true) :
    step.named cached.hID = true := by
  unfold Cached.purged at purged
  simp only [Bool.and_eq_true, decide_eq_true_eq] at purged
  simp [Step.named, purged.1.1, purged.1.2]

/-! ## Steps and what was applied to them -/

/-- The messages applied that belong to a step. -/
def appliedTo (applied : List (Wire × Nat)) (key : Nat) : List Wire :=
  (applied.map Prod.fst).filter fun wire => wire.key = key

theorem appliedTo_snoc_same (same : wire.key = key) :
    appliedTo (applied ++ [(wire, owner)]) key = appliedTo applied key ++ [wire] := by
  simp [appliedTo, filter_append, same]

theorem appliedTo_snoc_other (other : wire.key ≠ key) :
    appliedTo (applied ++ [(wire, owner)]) key = appliedTo applied key := by
  simp [appliedTo, filter_append, other]

structure Grown (applied : List (Wire × Nat)) (launch : Launch) (step : Step) :
    Prop where
  key : step.key = launch.step.key
  hID : step.hID = launch.step.hID
  packJobid : step.packJobid = launch.step.packJobid
  packStepCount : step.packStepCount = launch.step.packStepCount
  packNtasks : step.packNtasks = launch.step.packNtasks
  numPackInfo : step.numPackInfo = 0
  rcvdPackProcs : step.rcvdPackProcs = procs (appliedTo applied launch.step.key)
  infos : step.jobCompInfos.Perm ((appliedTo applied launch.step.key).map Wire.jobcomp)
  sorted : step.jobCompInfos.Pairwise fun left right => left.firstRank ≤ right.firstRank

theorem Grown.named_eq {launch : Launch} (grown : Grown applied launch step)
    (hID : HeadID) : step.named hID = launch.step.named hID := by
  unfold Step.named
  rw [grown.hID, grown.packJobid]

theorem Grown.other {launch : Launch} (grown : Grown applied launch step)
    (other : wire.key ≠ launch.step.key) :
    Grown (applied ++ [(wire, owner)]) launch step :=
  { grown with
    rcvdPackProcs := by
      rw [appliedTo_snoc_other other]
      exact grown.rcvdPackProcs
    infos := by
      rw [appliedTo_snoc_other other]
      exact grown.infos }

/-- The step after a message was applied. -/
def Step.grow (step : Step) (wire : Wire) : Step :=
  { step.count wire.msg.np with
    jobCompInfos := addJobCompInfo wire.jobcomp step.jobCompInfos }

theorem Grown.grow {launch : Launch} (grown : Grown applied launch step)
    (same : wire.key = launch.step.key)
    (small : wire.msg.np + procs (appliedTo applied launch.step.key)
      < 2 ^ 32) :
    Grown (applied ++ [(wire, owner)]) launch (step.grow wire) where
  key := grown.key
  hID := grown.hID
  packJobid := grown.packJobid
  packStepCount := grown.packStepCount
  packNtasks := grown.packNtasks
  numPackInfo := grown.numPackInfo
  rcvdPackProcs := by
    rw [appliedTo_snoc_same same, procs_perm (perm_append_singleton _ _), procs_cons]
    show (step.rcvdPackProcs + wire.msg.np) % 2 ^ 32 = _
    rw [grown.rcvdPackProcs, Nat.add_comm]
    exact Nat.mod_eq_of_lt small
  infos := by
    rw [appliedTo_snoc_same same, map_append]
    apply (addJobCompInfo_perm _ _).trans
    exact (grown.infos.cons _).trans (perm_append_singleton _ _).symm
  sorted := addJobCompInfo_sorted _ grown.sorted

/-! ## The books of the leader -/

def Handled (requests : List Launch) (key : Nat) : Prop :=
  ∀ launch ∈ requests, launch.step.key ≠ key

inductive Phase (node : Node) (launch : Launch) (applied : List Wire)
    (steps starts : List Step) : Prop where
  | waits (unstarted : launch.step.key ∉ starts.map Step.key)
      (listed : ∃ step ∈ steps, step.key = launch.step.key)
      (missing : ∃ wire ∈ launch.wires node, wire ∉ applied)
  | started (started : launch.step.key ∈ starts.map Step.key)
      (all : ∀ wire ∈ launch.wires node, wire ∈ applied)

/-- What holds of steps and messages applied; the step `due` may have got its
last message and not be started yet. -/
structure Books (node : Node) (issued requests : List Launch)
    (sent : List Wire) (applied : List (Wire × Nat)) (steps starts : List Step)
    (due : Option Nat) : Prop where
  proper : ∀ launch ∈ issued, launch.Proper node
  fine : ∀ launch ∈ issued, launch.leads = true → launch.Fine node
  recent : ∀ launch ∈ issued, launch.step.key < issued.length
  unique : ∀ launch ∈ issued, ∀ other ∈ issued, launch.step.key = other.step.key → launch = other
  apart : ∀ launch ∈ issued, ∀ other ∈ issued, ∀ hID,
    launch.step.named hID = true → other.step.named hID = true → launch = other
  requested : ∀ launch ∈ requests, launch ∈ issued
  origin : ∀ wire ∈ sent, ∃ launch ∈ issued, wire ∈ launch.wires node
  all : ∀ launch ∈ issued, ∀ wire ∈ launch.wires node, wire ∈ sent
  nodup : sent.Nodup
  own : ∀ entry ∈ applied, entry.2 = entry.1.key
  different : (applied.map Prod.fst).Nodup
  handled : ∀ wire ∈ applied.map Prod.fst, wire ∈ sent ∧ Handled requests wire.key
  keys : (steps.map Step.key).Nodup
  grown : ∀ step ∈ steps, ∃ launch ∈ issued,
    Handled requests launch.step.key ∧ Grown applied launch step
  once : (starts.map Step.key).Nodup
  begun : ∀ step ∈ starts, ∃ launch ∈ issued,
    launch.step.key = step.key ∧ Handled requests launch.step.key
  complete : ∀ step ∈ starts, ∀ launch ∈ issued,
    launch.step.key = step.key → launch.leads = true → Complete node launch step.jobCompInfos
  phase : ∀ launch ∈ issued, launch.leads = true →
    Handled requests launch.step.key → due ≠ some launch.step.key →
      Phase node launch (applied.map Prod.fst) steps starts

section Books

variable {issued requests : List Launch} {sent : List Wire}
  {applied : List (Wire × Nat)} {steps starts : List Step} {due : Option Nat}

theorem Books.weaken (key : Nat)
    (books : Books node issued requests sent applied steps starts none) :
    Books node issued requests sent applied steps starts (some key) :=
  { books with
    phase := fun launch member leads handled _ =>
      books.phase launch member leads handled (by simp) }

theorem Books.launch_of (books : Books node issued requests sent applied steps starts due)
    {launch : Launch} (member : launch ∈ issued) (inside : wire ∈ sent)
    (key : wire.key = launch.step.key) : wire ∈ launch.wires node := by
  obtain ⟨other, issued_, of_other⟩ := books.origin wire inside
  have same := books.unique other issued_ launch member ((key_eq of_other).symm.trans key)
  exact same ▸ of_other

theorem Books.appliedTo_sub (books : Books node issued requests sent applied steps starts due)
    {launch : Launch} (member : launch ∈ issued) :
    appliedTo applied launch.step.key ⊆ launch.wires node := by
  intro wire inside
  obtain ⟨inside, key⟩ := mem_filter.mp inside
  exact books.launch_of member (books.handled wire inside).1 (by simpa using key)

theorem Books.find (books : Books node issued requests sent applied steps starts due)
    {launch : Launch} (member : launch ∈ issued) (listed : step ∈ steps)
    (key : step.key = launch.step.key) (named : launch.step.named hID = true) :
    ∃ found ∈ steps, findByStepId steps hID = some found ∧ Grown applied launch found := by
  have of_launch : ∀ other ∈ steps, ∀ owner ∈ issued,
      Grown applied owner other → other.named hID = true → owner = launch := by
    intro other _ owner issued_ grown is_named
    rw [grown.named_eq] at is_named
    exact books.apart owner issued_ launch member hID is_named named
  obtain ⟨owner, issued_, -, grown⟩ := books.grown step listed
  have same := books.unique owner issued_ launch member (grown.key.symm.trans key)
  have is_named : step.named hID = true := by
    rw [grown.named_eq, same]
    exact named
  cases found : findByStepId steps hID with
  | none =>
    have none_named := find?_eq_none.mp found step listed
    exact absurd is_named none_named
  | some other =>
    have inside := mem_of_find?_eq_some found
    obtain ⟨owner, issued_, -, grown⟩ := books.grown other inside
    have is_found : other.named hID = true :=
      find?_some (p := fun step : Step => step.named hID) found
    have same := of_launch other inside owner issued_ grown is_found
    exact ⟨other, inside, rfl, same ▸ grown⟩

theorem Books.find_none
    (books : Books node issued requests sent applied steps starts due)
    {launch : Launch} (waits : launch ∈ requests)
    (named : launch.step.named hID = true) : findByStepId steps hID = none := by
  apply find?_eq_none.mpr
  intro step listed is_named
  obtain ⟨owner, issued_, handled, grown⟩ := books.grown step listed
  rw [grown.named_eq] at is_named
  have same := books.apart owner issued_ launch (books.requested launch waits) hID is_named named
  exact handled launch waits (by rw [same])

/-- The steps after one of them has changed. -/
def setSteps (steps : List Step) (step : Step) : List Step :=
  steps.map fun other => if other.key = step.key then step else other

theorem setSteps_keys (steps : List Step) (step : Step) :
    (setSteps steps step).map Step.key = steps.map Step.key := by
  unfold setSteps
  rw [map_map]
  apply map_congr_left
  intro other _
  show (if other.key = step.key then step else other).key = other.key
  split
  · next same => exact same.symm
  · rfl

theorem mem_setSteps {changed : Step} (member : step ∈ setSteps steps changed) :
    step = changed ∨ (step ∈ steps ∧ step.key ≠ changed.key) := by
  obtain ⟨other, inside, rfl⟩ := mem_map.mp member
  by_cases same : other.key = changed.key
  · exact .inl (if_pos same)
  · rw [if_neg same]
    exact .inr ⟨inside, same⟩

theorem listed_of_keys {before after : List Step} (keys : after.map Step.key = before.map Step.key)
    (listed : ∃ step ∈ before, step.key = key) :
    ∃ step ∈ after, step.key = key := by
  obtain ⟨step, inside, rfl⟩ := listed
  have member : step.key ∈ before.map Step.key := mem_map_of_mem inside
  rw [← keys] at member
  exact mem_map.mp member

theorem Books.grow (books : Books node issued requests sent applied steps starts none)
    {launch : Launch} (member : launch ∈ issued) (handled : Handled requests launch.step.key)
    (grown : Grown applied launch step) (of_launch : wire ∈ launch.wires node)
    (new : wire ∉ applied.map Prod.fst) :
    Grown (applied ++ [(wire, step.key)]) launch (step.grow wire)
      ∧ Books node issued requests sent (applied ++ [(wire, step.key)])
        (setSteps steps (step.grow wire)) starts (some launch.step.key)
      ∧ ((step.grow wire).rcvdPackProcs = launch.step.packNtasks ↔
        ∀ other ∈ launch.wires node, other ∈ (applied ++ [(wire, step.key)]).map Prod.fst) := by
  have key := key_eq of_launch
  have proper := books.proper launch member
  have leads := proper.leads of_launch
  have fine := books.fine launch member leads
  obtain ⟨total, small⟩ := proper.total leads
  have nodup : (wire :: appliedTo applied launch.step.key).Nodup := by
    apply nodup_cons.mpr
    refine ⟨fun inside => new (mem_filter.mp inside).1, ?_⟩
    exact books.different.filter _
  have sub : wire :: appliedTo applied launch.step.key ⊆ launch.wires node :=
    cons_subset.mpr ⟨of_launch, books.appliedTo_sub member⟩
  obtain ⟨bound, whole⟩ := procs_part nodup sub fun other inside => (fine.accepted other inside).2.2
  have total' : procs (launch.wires node) = launch.step.packNtasks := total
  rw [total', procs_cons] at bound
  rw [total', procs_cons] at whole
  have now : Grown (applied ++ [(wire, step.key)]) launch (step.grow wire) :=
    grown.grow key (by omega)
  have firsts : (applied ++ [(wire, step.key)]).map Prod.fst = applied.map Prod.fst ++ [wire] := by
    rw [map_append, map_singleton]
  have distinct : ((applied ++ [(wire, step.key)]).map Prod.fst).Nodup := by
    rw [firsts]
    exact Snoc.nodup books.different new
  have counts := now.rcvdPackProcs
  rw [appliedTo_snoc_same key, procs_perm (perm_append_singleton _ _), procs_cons] at counts
  refine ⟨now, ?_, ?_⟩
  · exact { books with
      own := Snoc.forall_mem books.own (grown.key.trans key.symm)
      different := distinct
      handled := by
        intro other inside
        rw [firsts] at inside
        rcases mem_append.mp inside with old | last
        · exact books.handled other old
        · rw [mem_singleton.mp last, key]
          exact ⟨books.all launch member wire of_launch, handled⟩
      keys := by
        rw [setSteps_keys]
        exact books.keys
      grown := by
        intro other inside
        rcases mem_setSteps inside with rfl | ⟨old, different⟩
        · exact ⟨launch, member, handled, now⟩
        · obtain ⟨owner, issued_, is_handled, was⟩ := books.grown other old
          refine ⟨owner, issued_, is_handled, was.other ?_⟩
          rw [key, ← now.key, ← was.key]
          exact Ne.symm different
      phase := by
        intro other issued_ other_leads other_handled not_due
        have apart : launch.step.key ≠ other.step.key := by simpa using not_due
        cases books.phase other issued_ other_leads other_handled (by simp) with
        | waits unstarted listed missing =>
          obtain ⟨absent, of_other, out⟩ := missing
          refine .waits unstarted (listed_of_keys (setSteps_keys _ _) listed)
            ⟨absent, of_other, fun inside => ?_⟩
          rw [firsts] at inside
          rcases mem_append.mp inside with old | last
          · exact out old
          · rw [mem_singleton.mp last] at of_other
            exact apart (key.symm.trans (key_eq of_other))
        | started started all =>
          refine .started started fun other' inside => ?_
          rw [firsts]
          exact mem_append_left _ (all other' inside) }
  · rw [counts]
    refine ⟨fun same other inside => ?_, fun all => ?_⟩
    · have listed := (whole same).mem_iff.mp inside
      rw [firsts]
      rcases mem_cons.mp listed with rfl | old
      · exact mem_append_right _ (mem_singleton_self _)
      · exact mem_append_left _ (mem_filter.mp old).1
    · have back : launch.wires node ⊆ wire :: appliedTo applied launch.step.key := by
        intro other inside
        have listed := all other inside
        rw [firsts] at listed
        rcases mem_append.mp listed with old | last
        · apply mem_cons_of_mem
          exact mem_filter.mpr ⟨old, by simpa using key_eq inside⟩
        · rw [mem_singleton.mp last]
          exact mem_cons_self
      have perm := (perm_ext_iff_of_nodup nodup launch.wires_nodup).mpr
        fun other => ⟨fun inside => sub inside, fun inside => back inside⟩
      rw [← procs_cons, procs_perm perm]
      exact total'

theorem Books.wait {launch : Launch}
    (books : Books node issued requests sent applied steps starts (some key))
    (member : launch ∈ issued) (is_key : launch.step.key = key)
    (unstarted : key ∉ starts.map Step.key) (listed : ∃ step ∈ steps, step.key = key)
    (missing : ∃ wire ∈ launch.wires node, wire ∉ applied.map Prod.fst) :
    Books node issued requests sent applied steps starts none :=
  { books with
    phase := by
      intro other issued_ leads handled _
      by_cases same : other.step.key = key
      · have equal := books.unique other issued_ launch member (same.trans is_key.symm)
        rw [equal]
        exact .waits (is_key ▸ unstarted) (is_key ▸ listed) missing
      · exact books.phase other issued_ leads handled
          fun due => same (by simpa using due.symm) }

theorem Books.begin {launch : Launch}
    (books : Books node issued requests sent applied steps starts
      (some step.key)) (member : launch ∈ issued)
    (is_key : launch.step.key = step.key)
    (handled : Handled requests launch.step.key)
    (unstarted : step.key ∉ starts.map Step.key)
    (complete : launch.leads = true → Complete node launch step.jobCompInfos
        ∧ ∀ wire ∈ launch.wires node, wire ∈ applied.map Prod.fst) :
    Books node issued requests sent applied steps (starts ++ [step]) none :=
  { books with
    once := by
      rw [map_append]
      exact Snoc.nodup books.once unstarted
    begun := Snoc.forall_mem books.begun ⟨launch, member, is_key, handled⟩
    complete := by
      intro other inside owner issued_ key leads
      rcases mem_append.mp inside with old | last
      · exact books.complete other old owner issued_ key leads
      · rw [mem_singleton.mp last] at key ⊢
        have same := books.unique owner issued_ launch member (key.trans is_key.symm)
        rw [same] at leads ⊢
        exact (complete leads).1
    phase := by
      intro other issued_ leads other_handled _
      by_cases same : other.step.key = step.key
      · have equal := books.unique other issued_ launch member (same.trans is_key.symm)
        rw [equal] at leads ⊢
        refine .started ?_ (complete leads).2
        rw [map_append, is_key]
        exact mem_append_right _ (mem_singleton_self _)
      · cases books.phase other issued_ leads other_handled
          fun due => same (by simpa using due.symm) with
        | waits not_started listed missing =>
          refine .waits (fun inside => ?_) listed missing
          rw [map_append] at inside
          rcases mem_append.mp inside with old | last
          · exact not_started old
          · exact same (mem_singleton.mp last)
        | started started all =>
          refine .started ?_ all
          rw [map_append]
          exact mem_append_left _ started }

theorem Books.forget
    (books : Books node issued requests sent applied steps starts none)
    (started : ∀ launch ∈ issued, launch.step.key = key →
      launch.leads = true → key ∈ starts.map Step.key) :
    Books node issued requests sent applied (steps.filter fun step => step.key ≠ key) starts none :=
  { books with
    keys := books.keys.sublist (filter_sublist.map _)
    grown := fun step inside => books.grown step (mem_filter.mp inside).1
    phase := by
      intro launch issued_ leads handled due
      cases books.phase launch issued_ leads handled due with
      | waits unstarted listed missing =>
        obtain ⟨step, inside, is_key⟩ := listed
        refine .waits unstarted ⟨step, mem_filter.mpr ⟨inside, ?_⟩, is_key⟩ missing
        simp only [decide_eq_true_eq]
        intro same
        have now := started launch issued_ (is_key.symm.trans same) leads
        rw [← same, is_key] at now
        exact unstarted now
      | started started all => exact .started started all }

end Books

/-! ## Messages under way, kept and applied -/

/-- Cached messages that were not replayed. -/
def fresh (cache : List Cached) : List Wire :=
  (cache.filter fun cached => !cached.read).map Cached.wire

theorem fresh_append (front back : List Cached) :
    fresh (front ++ back) = fresh front ++ fresh back := by
  simp [fresh]

theorem mem_fresh :
    wire ∈ fresh cache ↔ ∃ cached ∈ cache, cached.read = false ∧ cached.wire = wire := by
  simp [fresh, and_assoc]

/-- Replayed messages may be purged. -/
theorem fresh_filter {purged : Cached → Bool}
    (read : ∀ cached ∈ cache, purged cached = true → cached.read = true) :
    fresh (cache.filter fun cached => !purged cached) = fresh cache := by
  unfold fresh
  rw [filter_filter]
  congr 1
  apply filter_congr
  intro cached member
  cases is_purged : purged cached with
  | false => simp
  | true => simp [read cached member is_purged]

/-- Where the messages are; those in `extra` are being handled. -/
structure Traffic (daemon : Daemon) (extra : List Wire) : Prop where
  perm : (extra ++ (daemon.wire ++ (fresh daemon.cache
    ++ (daemon.unsent ++ daemon.applied.map Prod.fst)))).Perm daemon.sent
  entry : ∀ cached ∈ daemon.cache, cached.wire ∈ daemon.sent ∧ cached.hID = cached.wire.msg.headID
  waiting : ∀ cached ∈ daemon.cache, cached.read = false →
    (∃ launch ∈ daemon.requests, launch.step.key = cached.wire.key)
      ∨ (daemon.replaying = some cached.wire.key ∧ cached ∈ daemon.ahead)
  spent : ∀ cached ∈ daemon.cache, cached.read = true →
    cached.wire ∈ extra ++ daemon.applied.map Prod.fst
  unsent : ∀ wire ∈ daemon.unsent,
    (∃ launch ∈ daemon.requests, launch.step.key = wire.key) ∨ daemon.replaying = some wire.key

structure Replays (daemon : Daemon) (launch : Launch) : Prop where
  issued : launch ∈ daemon.issued
  leads : launch.leads = true
  handled : Handled daemon.requests launch.step.key
  listed : ∃ step ∈ daemon.steps, step.key = launch.step.key
  own : ∀ cached ∈ daemon.ahead, cached.replays launch.step = true →
    cached.wire.key = launch.step.key ∧ cached.read = false

/-- The loop is at work, or it is not. -/
structure Loop (daemon : Daemon) : Prop where
  idle : daemon.replaying = none → daemon.ahead = []
  replays : ∀ key, daemon.replaying = some key →
    ∃ launch, launch.step.key = key ∧ Replays daemon launch
  rejects : daemon.rejects = []
  touched : daemon.touched = []

def Daemon.Booked (node : Node) (daemon : Daemon) (due : Option Nat) : Prop :=
  Books node daemon.issued daemon.requests daemon.sent daemon.applied daemon.steps daemon.starts due

/-- What holds in every run whose events fit. -/
structure Sound (node : Node) (daemon : Daemon) : Prop where
  books : daemon.Booked node none
  traffic : Traffic daemon []
  loop : Loop daemon

/-- A message of a step whose request was handled was applied if it is not under
way. -/
theorem Sound.arrived (sound : Sound node daemon) {launch : Launch}
    (launched : daemon.Launched launch) (of_launch : wire ∈ launch.wires node)
    (gone : wire ∉ daemon.wire) : wire ∈ daemon.applied.map Prod.fst := by
  obtain ⟨issued, handled, elsewhere⟩ := launched
  have key := key_eq of_launch
  have not_requested : ¬∃ other ∈ daemon.requests, other.step.key = wire.key := by
    rintro ⟨other, requested, same⟩
    exact handled other requested (same.trans key)
  have not_replaying : daemon.replaying ≠ some wire.key := by
    rw [key]
    exact elsewhere
  have sent := sound.books.all launch issued wire of_launch
  have somewhere := sound.traffic.perm.mem_iff.mpr sent
  rcases mem_append.mp somewhere with none_ | somewhere
  · exact absurd none_ not_mem_nil
  rcases mem_append.mp somewhere with travels | somewhere
  · exact absurd travels gone
  rcases mem_append.mp somewhere with kept | somewhere
  · obtain ⟨cached, inside, unread, rfl⟩ := mem_fresh.mp kept
    rcases sound.traffic.waiting cached inside unread with waits | ⟨now, -⟩
    · exact absurd waits not_requested
    · exact absurd now not_replaying
  rcases mem_append.mp somewhere with unsent | applied
  · rcases sound.traffic.unsent wire unsent with waits | now
    · exact absurd waits not_requested
    · exact absurd now not_replaying
  · exact applied

theorem Sound.right (sound : Sound node daemon) : Right node daemon where
  once := sound.books.once
  complete := sound.books.complete
  started := by
    intro launch launched leads gone
    cases sound.books.phase launch launched.1 leads launched.2.1 (by simp) with
    | waits unstarted listed missing =>
      obtain ⟨wire, of_launch, out⟩ := missing
      refine absurd (sound.arrived launched of_launch fun travels => ?_) out
      exact gone wire travels (key_eq of_launch)
    | started started all => exact started
  own := sound.books.own
  different := sound.books.different
  applied := fun launch launched wire => sound.arrived launched
  unchanged := by
    rw [sound.loop.rejects]
    exact fun entry member => absurd member not_mem_nil
  untouched := sound.loop.touched

/-! ## Steps are deleted -/

theorem Traffic.purged_read {due : Option Nat} (books : daemon.Booked node due) {extra : List Wire}
    (traffic : Traffic daemon extra) (idle : daemon.ahead = []) {launch : Launch}
    (issued : launch ∈ daemon.issued) (handled : Handled daemon.requests launch.step.key)
    (same : hID = launch.step.hID) :
    ∀ cached ∈ daemon.cache, cached.purged hID = true → cached.read = true := by
  intro cached member purged
  by_contra unread
  have unread : cached.read = false := by simpa using unread
  rw [same] at purged
  have named := named_of_purged purged
  obtain ⟨sent, is_hID⟩ := traffic.entry cached member
  obtain ⟨owner, owner_issued, of_owner⟩ := books.origin _ sent
  have owner_named := (books.proper owner owner_issued).named of_owner
  rw [is_hID] at named
  have equal := books.apart owner owner_issued launch issued _ owner_named named
  rcases traffic.waiting cached member unread with waits | ⟨-, ahead⟩
  · obtain ⟨other, requested, key⟩ := waits
    apply handled other requested
    rw [key, key_eq of_owner, equal]
  · rw [idle] at ahead
    exact absurd ahead not_mem_nil

theorem Traffic.purge {extra : List Wire} (traffic : Traffic daemon extra)
    (read : ∀ cached ∈ daemon.cache, cached.purged hID = true →
      cached.read = true) : Traffic (daemon.deleteCachedMsg hID) extra := by
  have cache : (daemon.deleteCachedMsg hID).cache
      = daemon.cache.filter fun cached => !cached.purged hID := by
    unfold Daemon.cache
    rw [filter_append]
    rfl
  have inside : ∀ cached ∈ (daemon.deleteCachedMsg hID).cache,
      cached ∈ daemon.cache ∧ (!cached.purged hID) = true := by
    intro cached member
    rw [cache] at member
    exact mem_filter.mp member
  refine ⟨?_, fun cached member => traffic.entry cached (inside cached member).1,
    ?_, fun cached member => traffic.spent cached (inside cached member).1,
    traffic.unsent⟩
  · rw [cache, fresh_filter read]
    exact traffic.perm
  · intro cached member unread
    obtain ⟨member, kept⟩ := inside cached member
    rcases traffic.waiting cached member unread with waits | ⟨now, ahead⟩
    · exact .inl waits
    · exact .inr ⟨now, mem_filter.mpr ⟨ahead, kept⟩⟩

theorem Sound.deleteStep (sound : Sound node daemon) (idle : daemon.replaying = none)
    {launch : Launch} (issued : launch ∈ daemon.issued)
    (handled : Handled daemon.requests launch.step.key) (key : step.key = launch.step.key)
    (hID : step.hID = launch.step.hID)
    (started : launch.leads = true → step.key ∈ daemon.starts.map Step.key) :
    Sound node (daemon.deleteStep step) where
  books := by
    apply sound.books.forget
    intro other other_issued same leads
    have equal := sound.books.unique other other_issued launch issued (same.trans key)
    exact started (equal ▸ leads)
  traffic := by
    have purged := sound.traffic.purge (sound.traffic.purged_read sound.books
      (sound.loop.idle idle) issued handled hID)
    exact ⟨purged.perm, purged.entry, purged.waiting, purged.spent, purged.unsent⟩
  loop := by
    refine ⟨fun _ => ?_, fun key now => ?_, sound.loop.rejects, sound.loop.touched⟩
    · show daemon.ahead.filter _ = []
      rw [sound.loop.idle idle]
      rfl
    · have none_ : daemon.replaying = some key := now
      rw [idle] at none_
      exact absurd none_ (by simp)

/-! ## A message is applied or kept -/

def Daemon.apply (daemon : Daemon) (wire : Wire) (step : Step) : Daemon :=
  { daemon.setStep (step.grow wire) with
    applied := daemon.applied ++ [(wire, step.key)] }

theorem handlePackInfo_found (alloc : findByPackID node wire.msg.headID.jobid = true)
    (found : findByStepId daemon.steps wire.msg.headID = some step)
    (space : step.numPackInfo ≠ step.packStepCount)
    (slots : getSlotsFromMsg wire.msg.slots = some wire.msg.slots.slots)
    (len : wire.msg.slots.len = wire.msg.np) (ok : Bool) :
    handlePackInfo node daemon wire wire.msg ok
      = if (step.grow wire).rcvdPackProcs = (step.grow wire).nTasks then
          (daemon.apply wire step).execStep (step.grow wire) ok
        else daemon.apply wire step := by
  unfold handlePackInfo
  rw [alloc, if_neg (by simp), found]
  simp only [if_neg space, slots, len, ne_eq, not_true_eq_false, if_false]
  rfl

theorem handlePackInfo_none (alloc : findByPackID node wire.msg.headID.jobid = true)
    (found : findByStepId daemon.steps wire.msg.headID = none) (ok : Bool) :
    handlePackInfo node daemon wire wire.msg ok
      = daemon.addCached { hID := wire.msg.headID, wire, read := false } := by
  unfold handlePackInfo
  rw [alloc, if_neg (by simp), found]

theorem Traffic.new {due : Option Nat} (books : daemon.Booked node due)
    (traffic : Traffic daemon [wire]) :
    wire ∈ daemon.sent ∧ wire ∉ daemon.applied.map Prod.fst := by
  have nodup := traffic.perm.nodup_iff.mpr books.nodup
  refine ⟨traffic.perm.mem_iff.mp mem_cons_self, fun applied => ?_⟩
  apply (nodup_cons.mp nodup).1
  apply mem_append_right
  apply mem_append_right
  apply mem_append_right
  exact mem_append_right _ applied

theorem Traffic.apply (traffic : Traffic daemon [wire]) (step : Step) :
    Traffic (daemon.apply wire step) [] := by
  have firsts : (daemon.apply wire step).applied.map Prod.fst
      = daemon.applied.map Prod.fst ++ [wire] := by
    show (daemon.applied ++ [(wire, step.key)]).map Prod.fst = _
    rw [map_append, map_singleton]
  refine ⟨?_, traffic.entry, traffic.waiting, ?_, traffic.unsent⟩
  · rw [firsts, nil_append]
    show (daemon.wire ++ (fresh daemon.cache ++ (daemon.unsent
      ++ (daemon.applied.map Prod.fst ++ [wire])))).Perm daemon.sent
    rw [← append_assoc daemon.unsent,
      ← append_assoc (fresh daemon.cache),
      ← append_assoc daemon.wire]
    exact (perm_append_comm).trans traffic.perm
  · intro cached member read
    rw [firsts, nil_append]
    apply perm_append_comm.mem_iff.mp
    exact traffic.spent cached member read

theorem Loop.apply (loop : Loop daemon) (wire : Wire) (step : Step) :
    Loop (daemon.apply wire step) := by
  refine ⟨loop.idle, fun key now => ?_, loop.rejects, loop.touched⟩
  obtain ⟨launch, is_key, replays⟩ := loop.replays key now
  exact ⟨launch, is_key, { replays with
    listed := listed_of_keys (setSteps_keys _ _) replays.listed }⟩

/-- A message that is taken leads to a start if it is the last one. -/
theorem applied_sound {daemon : Daemon} {wire : Wire}
    (books : daemon.Booked node none) (traffic : Traffic daemon [wire])
    (loop : Loop daemon) {launch : Launch} (issued : launch ∈ daemon.issued)
    (handled : Handled daemon.requests launch.step.key)
    (of_launch : wire ∈ launch.wires node) {ok : Bool}
    (fits : daemon.replaying = none ∨ ok = true) :
    Sound node (handlePackInfo node daemon wire wire.msg ok) := by
  have key := key_eq of_launch
  have proper := books.proper launch issued
  have leads := proper.leads of_launch
  have fine := books.fine launch issued leads
  obtain ⟨slots, len, -⟩ := fine.accepted wire of_launch
  obtain ⟨sent, new⟩ := traffic.new books
  obtain ⟨unstarted, listed⟩ : launch.step.key ∉ daemon.starts.map Step.key
      ∧ ∃ step ∈ daemon.steps, step.key = launch.step.key := by
    cases books.phase launch issued leads handled (by simp) with
    | waits unstarted listed missing => exact ⟨unstarted, listed⟩
    | started started all => exact absurd (all wire of_launch) new
  obtain ⟨member, inside, is_key⟩ := listed
  obtain ⟨step, listed, found, grown⟩ := books.find issued inside is_key (proper.named of_launch)
  have alloc : findByPackID node wire.msg.headID.jobid = true := by
    rw [proper.packID of_launch]
    exact proper.alloc leads
  have space : step.numPackInfo ≠ step.packStepCount := by
    have several := (proper.count leads).1
    rw [grown.numPackInfo, grown.packStepCount]
    omega
  rw [handlePackInfo_found alloc found space slots len ok]
  obtain ⟨now, after, complete⟩ := books.grow issued handled grown of_launch new
  have nTasks : (step.grow wire).nTasks = launch.step.packNtasks := by
    have not_interactive : (step.grow wire).hID.stepid ≠ slurmInteractiveStep := by
      rw [now.hID]
      exact fine.counted
    unfold Step.nTasks
    rw [if_neg not_interactive, now.packNtasks]
  rw [nTasks]
  have listed_after : ∃ other ∈ setSteps daemon.steps (step.grow wire),
      other.key = launch.step.key :=
    listed_of_keys (setSteps_keys _ _) ⟨step, listed, grown.key⟩
  by_cases last : (step.grow wire).rcvdPackProcs = launch.step.packNtasks
  · rw [if_pos last]
    have all := complete.mp last
    have started : Sound node { daemon.apply wire step with
        starts := daemon.starts ++ [step.grow wire] } := by
      refine ⟨?_, ⟨(traffic.apply step).perm, (traffic.apply step).entry,
        (traffic.apply step).waiting, (traffic.apply step).spent,
        (traffic.apply step).unsent⟩, ⟨(loop.apply wire step).idle,
        fun other at_work => ?_, loop.rejects, loop.touched⟩⟩
      · have due : (some launch.step.key : Option Nat) = some (step.grow wire).key := by
          rw [now.key]
        apply Books.begin (due ▸ after) issued now.key.symm handled
        · rw [now.key]
          exact unstarted
        · intro _
          refine ⟨?_, all⟩
          have perm : (appliedTo (daemon.applied ++ [(wire, step.key)])
              launch.step.key).Perm (launch.wires node) := by
            apply (perm_ext_iff_of_nodup (after.different.filter _) launch.wires_nodup).mpr
            intro other
            refine ⟨fun member => after.appliedTo_sub issued member,
              fun member => mem_filter.mpr ⟨all other member, ?_⟩⟩
            simpa using key_eq member
          have infos := now.infos.trans (perm.map Wire.jobcomp)
          refine ⟨infos, now.sorted, ?_, ?_⟩
          · rw [infos.length_eq, length_map]
            exact (proper.count leads).2
          · rw [(infos.map JobCompInfo.np).sum_eq, map_map]
            exact (proper.total leads).1
      · obtain ⟨owner, same, replays⟩ := (loop.apply wire step).replays other at_work
        exact ⟨owner, same, ⟨replays.issued, replays.leads, replays.handled,
          replays.listed, replays.own⟩⟩
    unfold Daemon.execStep
    cases ok with
    | true => exact started
    | false =>
      have idle : daemon.replaying = none := by
        rcases fits with idle | ok
        · exact idle
        · exact absurd ok (by simp)
      apply started.deleteStep idle issued handled now.key now.hID
      intro _
      exact mem_map_of_mem (mem_append_right _ (mem_singleton_self _))
  · rw [if_neg last]
    have missing : ∃ other ∈ launch.wires node, other
        ∉ (daemon.applied ++ [(wire, step.key)]).map Prod.fst := by
      by_contra none_
      apply last
      apply complete.mpr
      intro other member
      by_contra out
      exact none_ ⟨other, member, out⟩
    exact ⟨after.wait issued rfl unstarted listed_after missing,
      traffic.apply step, loop.apply wire step⟩

/-- A message that comes before the request of its step is kept. -/
theorem kept_sound {daemon : Daemon} {wire : Wire}
    (books : daemon.Booked node none) (traffic : Traffic daemon [wire])
    (loop : Loop daemon) (idle : daemon.replaying = none) {launch : Launch}
    (spent : ∀ cached ∈ daemon.cache, cached.read = true →
      cached.wire ∈ daemon.applied.map Prod.fst)
    (requested : launch ∈ daemon.requests)
    (of_launch : wire ∈ launch.wires node) (ok : Bool) :
    Sound node (handlePackInfo node daemon wire wire.msg ok) := by
  have issued := books.requested launch requested
  have proper := books.proper launch issued
  have alloc : findByPackID node wire.msg.headID.jobid = true := by
    rw [proper.packID of_launch]
    exact proper.alloc (proper.leads of_launch)
  have found := books.find_none requested (proper.named of_launch)
  rw [handlePackInfo_none alloc found]
  have nothing := loop.idle idle
  have added : daemon.addCached { hID := wire.msg.headID, wire, read := false }
      = { daemon with msgCache := daemon.msgCache
          ++ [{ hID := wire.msg.headID, wire, read := false }] } := by
    unfold Daemon.addCached
    rw [nothing]
  rw [added]
  have new_cache : Daemon.cache { daemon with msgCache := daemon.msgCache
        ++ [{ hID := wire.msg.headID, wire, read := false }] }
      = daemon.cache ++ [{ hID := wire.msg.headID, wire, read := false }] := by
    unfold Daemon.cache
    rw [nothing, append_nil, append_nil]
  have kept : fresh [{ hID := wire.msg.headID, wire, read := false }] = [wire] := rfl
  refine ⟨books, ⟨?_, ?_, ?_, ?_, traffic.unsent⟩, ⟨fun _ => nothing,
    fun key now => ?_, loop.rejects, loop.touched⟩⟩
  · rw [new_cache, fresh_append, kept, nil_append]
    refine List.Perm.trans ?_ traffic.perm
    rw [append_assoc, singleton_append, singleton_append,
      ← append_assoc, ← append_assoc daemon.wire]
    exact perm_middle
  · intro cached member
    rw [new_cache] at member
    rcases mem_append.mp member with old | last
    · exact traffic.entry cached old
    · rw [mem_singleton.mp last]
      exact ⟨(traffic.new books).1, rfl⟩
  · intro cached member unread
    rw [new_cache] at member
    rcases mem_append.mp member with old | last
    · exact traffic.waiting cached old unread
    · rw [mem_singleton.mp last]
      exact .inl ⟨launch, requested, (key_eq of_launch).symm⟩
  · intro cached member read
    rw [new_cache] at member
    rcases mem_append.mp member with old | last
    · exact spent cached old read
    · rw [mem_singleton.mp last] at read
      exact absurd read (by simp)
  · have now : daemon.replaying = some key := now
    rw [idle] at now
    exact absurd now (by simp)

/-! ## Events -/

theorem Sound.packInfo (sound : Sound node daemon)
    (idle : daemon.replaying = none) (travels : wire ∈ daemon.wire) (ok : Bool) :
    Sound node (perform node daemon (.packInfo wire ok)) := by
  have sent : wire ∈ daemon.sent := by
    apply sound.traffic.perm.mem_iff.mp
    exact mem_append_right _ (mem_append_left _ travels)
  obtain ⟨launch, issued, of_launch⟩ := sound.books.origin wire sent
  have traffic : Traffic { daemon with wire := daemon.wire.erase wire } [wire] := by
    refine ⟨?_, sound.traffic.entry, sound.traffic.waiting, ?_, sound.traffic.unsent⟩
    · refine List.Perm.trans ?_ sound.traffic.perm
      exact ((perm_cons_erase travels).symm).append_right _
    · intro cached member read
      exact mem_cons_of_mem _ (sound.traffic.spent cached member read)
  have loop : Loop { daemon with wire := daemon.wire.erase wire } := by
    refine ⟨sound.loop.idle, fun key now => ?_, sound.loop.rejects, sound.loop.touched⟩
    have now : daemon.replaying = some key := now
    rw [idle] at now
    exact absurd now (by simp)
  by_cases handled : Handled daemon.requests launch.step.key
  · exact @applied_sound node { daemon with wire := daemon.wire.erase wire } wire
      sound.books traffic loop launch issued handled of_launch ok (.inl idle)
  · have waits : launch ∈ daemon.requests := by
      unfold Handled at handled
      simp only [not_forall, not_not] at handled
      obtain ⟨other, requested, same⟩ := handled
      have equal := sound.books.unique other
        (sound.books.requested other requested) launch issued same
      exact equal ▸ requested
    exact @kept_sound node { daemon with wire := daemon.wire.erase wire } wire
      sound.books traffic loop idle launch sound.traffic.spent waits of_launch ok

theorem Sound.submit (sound : Sound node daemon) {launch : Launch}
    (proper : launch.Proper node) (key : launch.step.key = daemon.issued.length)
    (apart : ∀ other ∈ daemon.issued, launch.Apart other)
    (fine : launch.leads = true → launch.Fine node) :
    Sound node (perform node daemon (.submit launch)) := by
  have before : ∀ other ∈ daemon.issued, other.step.key ≠ launch.step.key := by
    intro other member
    have recent := sound.books.recent other member
    omega
  have old_key : ∀ wire ∈ daemon.sent, wire.key ≠ launch.step.key := by
    intro wire member
    obtain ⟨other, issued, of_other⟩ := sound.books.origin wire member
    rw [key_eq of_other]
    exact before other issued
  have handled : ∀ wanted, Handled (daemon.requests ++ [launch]) wanted →
      Handled daemon.requests wanted := fun wanted handled other member =>
    handled other (mem_append_left _ member)
  have still : ∀ wanted, wanted ≠ launch.step.key →
      Handled daemon.requests wanted → Handled (daemon.requests ++ [launch]) wanted := by
    intro wanted different handled other member
    rcases mem_append.mp member with old | last
    · exact handled other old
    · rw [mem_singleton.mp last]
      exact Ne.symm different
  refine ⟨?_, ?_, ?_⟩
  · exact { sound.books with
      proper := Snoc.forall_mem sound.books.proper proper
      fine := by
        intro other member leads
        rcases mem_append.mp member with old | last
        · exact sound.books.fine other old leads
        · rw [mem_singleton.mp last] at leads ⊢
          exact fine leads
      recent := by
        intro other member
        show other.step.key < (daemon.issued ++ [launch]).length
        rw [length_append, length_singleton]
        rcases mem_append.mp member with old | last
        · exact Nat.lt_succ_of_lt (sound.books.recent other old)
        · rw [mem_singleton.mp last, key]
          exact Nat.lt_succ_self _
      unique := by
        intro left inside right member same
        rcases mem_append.mp inside with left_old | left_last
        · rcases mem_append.mp member with right_old | right_last
          · exact sound.books.unique left left_old right right_old same
          · rw [mem_singleton.mp right_last] at same
            exact absurd same (before left left_old)
        · rcases mem_append.mp member with right_old | right_last
          · rw [mem_singleton.mp left_last] at same
            exact absurd same.symm (before right right_old)
          · rw [mem_singleton.mp left_last, mem_singleton.mp right_last]
      apart := by
        intro left inside right member hID left_named right_named
        rcases mem_append.mp inside with left_old | left_last
        · rcases mem_append.mp member with right_old | right_last
          · exact sound.books.apart left left_old right right_old hID left_named right_named
          · rw [mem_singleton.mp right_last] at right_named
            have different := apart left left_old hID right_named
            rw [left_named] at different
            exact absurd different (by simp)
        · rcases mem_append.mp member with right_old | right_last
          · rw [mem_singleton.mp left_last] at left_named
            have different := apart right right_old hID left_named
            rw [right_named] at different
            exact absurd different (by simp)
          · rw [mem_singleton.mp left_last, mem_singleton.mp right_last]
      requested := by
        intro other member
        rcases mem_append.mp member with old | last
        · exact mem_append_left _ (sound.books.requested other old)
        · exact mem_append_right _ last
      origin := by
        intro wire member
        rcases mem_append.mp member with old | now
        · obtain ⟨other, issued, of_other⟩ := sound.books.origin wire old
          exact ⟨other, mem_append_left _ issued, of_other⟩
        · exact ⟨launch, mem_append_right _ (mem_singleton_self _), now⟩
      all := by
        intro other member wire inside
        rcases mem_append.mp member with old | last
        · exact mem_append_left _ (sound.books.all other old wire inside)
        · rw [mem_singleton.mp last] at inside
          exact mem_append_right _ inside
      nodup := by
        apply nodup_append.mpr
        refine ⟨sound.books.nodup, launch.wires_nodup, ?_⟩
        intro left old right now same
        apply old_key left old
        rw [same]
        exact key_eq now
      handled := by
        intro wire member
        obtain ⟨sent, was⟩ := sound.books.handled wire member
        exact ⟨mem_append_left _ sent, still _ (old_key wire sent) was⟩
      grown := by
        intro step member
        obtain ⟨other, issued, was, grown⟩ := sound.books.grown step member
        exact ⟨other, mem_append_left _ issued, still _ (before other issued) was, grown⟩
      begun := by
        intro step member
        obtain ⟨other, issued, same, was⟩ := sound.books.begun step member
        exact ⟨other, mem_append_left _ issued, same, still _ (before other issued) was⟩
      complete := by
        intro step member other issued same leads
        rcases mem_append.mp issued with old | last
        · exact sound.books.complete step member other old same leads
        · obtain ⟨owner, is_issued, is_key, -⟩ := sound.books.begun step member
          rw [mem_singleton.mp last] at same
          exact absurd (is_key.trans same.symm) (before owner is_issued)
      phase := by
        intro other issued leads was due
        rcases mem_append.mp issued with old | last
        · exact sound.books.phase other old leads (handled _ was) due
        · have same : launch.step.key = other.step.key := by
            rw [mem_singleton.mp last]
          exact absurd same (was launch (mem_append_right _ (mem_singleton_self _))) }
  · refine ⟨?_, ?_, ?_, sound.traffic.spent, ?_⟩
    · have perm := sound.traffic.perm
      show ([] ++ ((daemon.wire ++ launch.forwarded) ++ (fresh daemon.cache
        ++ ((daemon.unsent ++ launch.own node) ++ daemon.applied.map Prod.fst)))).Perm
            (daemon.sent ++ (launch.forwarded ++ launch.own node))
      refine List.Perm.trans ?_ (perm.append_right _)
      apply perm_iff_count.mpr
      intro wire
      simp only [count_append]
      omega
    · intro cached member
      obtain ⟨sent, hID⟩ := sound.traffic.entry cached member
      exact ⟨mem_append_left _ sent, hID⟩
    · intro cached member unread
      rcases sound.traffic.waiting cached member unread with waits | now
      · obtain ⟨other, requested, same⟩ := waits
        exact .inl ⟨other, mem_append_left _ requested, same⟩
      · exact .inr now
    · intro wire member
      rcases mem_append.mp member with old | own
      · rcases sound.traffic.unsent wire old with waits | now
        · obtain ⟨other, requested, same⟩ := waits
          exact .inl ⟨other, mem_append_left _ requested, same⟩
        · exact .inr now
      · refine .inl ⟨launch, mem_append_right _ (mem_singleton_self _), ?_⟩
        exact (key_eq (mem_append_right _ own)).symm
  · refine ⟨sound.loop.idle, fun wanted now => ?_, sound.loop.rejects, sound.loop.touched⟩
    obtain ⟨other, same, replays⟩ := sound.loop.replays wanted now
    exact ⟨other, same, mem_append_left _ replays.issued, replays.leads,
      still _ (before other replays.issued) replays.handled, replays.listed,
      replays.own⟩

/-! ## A launch request is handled -/

def without (requests : List Launch) (launch : Launch) : List Launch :=
  requests.filter fun other => other.step.key ≠ launch.step.key

theorem handled_without {requests : List Launch} {launch : Launch} :
    Handled (without requests launch) key ↔ key = launch.step.key ∨ Handled requests key := by
  constructor
  · intro handled
    by_cases same : key = launch.step.key
    · exact .inl same
    · refine .inr fun other member equal => ?_
      apply handled other (mem_filter.mpr ⟨member, ?_⟩) equal
      simpa [equal] using same
  · rintro (rfl | handled) other member equal
    · have different := (mem_filter.mp member).2
      simp [equal] at different
    · exact handled other (mem_filter.mp member).1 equal

theorem Sound.not_applied (sound : Sound node daemon) {launch : Launch}
    (requested : launch ∈ daemon.requests) (key : wire.key = launch.step.key) :
    wire ∉ daemon.applied.map Prod.fst := fun applied =>
  (sound.books.handled wire applied).2 launch requested key.symm

theorem Sound.books_launch (sound : Sound node daemon) {launch : Launch}
    (requested : launch ∈ daemon.requests) :
    Books node daemon.issued (without daemon.requests launch) daemon.sent
      daemon.applied (daemon.steps ++ [launch.step]) daemon.starts none := by
  have issued := sound.books.requested launch requested
  have proper := sound.books.proper launch issued
  have handled : ∀ key, Handled daemon.requests key →
      Handled (without daemon.requests launch) key := fun key handled =>
    handled_without.mpr (.inr handled)
  have unhandled : ¬Handled daemon.requests launch.step.key :=
    fun handled => handled launch requested rfl
  have nothing : appliedTo daemon.applied launch.step.key = [] := by
    apply filter_eq_nil_iff.mpr
    intro wire applied key
    exact sound.not_applied requested (by simpa using key) applied
  have first : Grown daemon.applied launch launch.step := by
    refine ⟨rfl, rfl, rfl, rfl, rfl, proper.numPackInfo, ?_, ?_, ?_⟩
    · rw [nothing, proper.rcvdPackProcs]
      rfl
    · rw [nothing, proper.jobCompInfos]
      exact List.Perm.refl _
    · rw [proper.jobCompInfos]
      exact List.Pairwise.nil
  exact { sound.books with
    requested := fun other member => sound.books.requested other (mem_filter.mp member).1
    handled := by
      intro wire applied
      obtain ⟨sent, was⟩ := sound.books.handled wire applied
      exact ⟨sent, handled _ was⟩
    keys := by
      refine Snoc.nodup_map sound.books.keys (fun step listed same => ?_)
      obtain ⟨other, -, was, grown⟩ := sound.books.grown step listed
      rw [← grown.key, same] at was
      exact unhandled was
    grown := by
      intro step member
      rcases mem_append.mp member with old | last
      · obtain ⟨other, other_issued, was, grown⟩ :=
          sound.books.grown step old
        exact ⟨other, other_issued, handled _ was, grown⟩
      · rw [mem_singleton.mp last]
        exact ⟨launch, issued, handled_without.mpr (.inl rfl), first⟩
    begun := by
      intro step member
      obtain ⟨other, other_issued, same, was⟩ := sound.books.begun step member
      exact ⟨other, other_issued, same, handled _ was⟩
    phase := by
      intro other other_issued leads now due
      rcases handled_without.mp now with same | was
      · have equal := sound.books.unique other other_issued launch issued same
        rw [equal] at leads ⊢
        refine .waits (fun started => ?_)
          ⟨launch.step, mem_append_right _ (mem_singleton_self _),
            rfl⟩ ?_
        · obtain ⟨step, member, key⟩ := mem_map.mp started
          obtain ⟨owner, -, is_key, was⟩ := sound.books.begun step member
          rw [is_key, key] at was
          exact unhandled was
        · obtain ⟨several, length⟩ := proper.count leads
          have some_wire : launch.wires node ≠ [] := by
            intro none_
            rw [none_, length_nil] at length
            omega
          obtain ⟨wire, of_launch⟩ := exists_mem_of_ne_nil _ some_wire
          exact ⟨wire, of_launch, sound.not_applied requested (key_eq of_launch)⟩
      · cases sound.books.phase other other_issued leads was due with
        | waits unstarted listed missing =>
          obtain ⟨step, inside, key⟩ := listed
          exact .waits unstarted ⟨step, mem_append_left _ inside, key⟩ missing
        | started started all => exact .started started all }

theorem Sound.launch_plain (sound : Sound node daemon) (idle : daemon.replaying = none)
    {launch : Launch} (requested : launch ∈ daemon.requests) (plain : launch.leads = false) :
    Sound node { daemon with
      steps := daemon.steps ++ [launch.step]
      requests := without daemon.requests launch } := by
  have issued := sound.books.requested launch requested
  have proper := sound.books.proper launch issued
  have none_of : ∀ wire ∈ daemon.sent, wire.key ≠ launch.step.key := by
    intro wire sent key
    have of_launch := sound.books.launch_of issued sent key
    rw [proper.leads of_launch] at plain
    exact absurd plain (by simp)
  have still : ∀ wire ∈ daemon.sent, (∃ other ∈ daemon.requests, other.step.key = wire.key) →
        ∃ other ∈ without daemon.requests launch, other.step.key = wire.key := by
    rintro wire sent ⟨other, member, same⟩
    refine ⟨other, mem_filter.mpr ⟨member, ?_⟩, same⟩
    simpa [same] using none_of wire sent
  have unsent_sent : ∀ wire ∈ daemon.unsent, wire ∈ daemon.sent := by
    intro wire member
    apply sound.traffic.perm.mem_iff.mp
    apply mem_append_right
    apply mem_append_right
    apply mem_append_right
    exact mem_append_left _ member
  refine ⟨sound.books_launch requested, ⟨sound.traffic.perm,
    sound.traffic.entry, ?_, sound.traffic.spent, ?_⟩,
    ⟨sound.loop.idle, fun key now => ?_, sound.loop.rejects, sound.loop.touched⟩⟩
  · intro cached member unread
    rcases sound.traffic.waiting cached member unread with waits | now
    · exact .inl (still _ (sound.traffic.entry cached member).1 waits)
    · exact .inr now
  · intro wire member
    rcases sound.traffic.unsent wire member with waits | now
    · exact .inl (still wire (unsent_sent wire member) waits)
    · exact .inr now
  · have now : daemon.replaying = some key := now
    rw [idle] at now
    exact absurd now (by simp)

/-- The leader of a heterogeneous step begins to replay messages. -/
theorem Sound.launch_leads (sound : Sound node daemon)
    (idle : daemon.replaying = none) {launch : Launch}
    (requested : launch ∈ daemon.requests) (leads : launch.leads = true)
    (own : ∀ cached ∈ daemon.msgCache, cached.replays launch.step = true →
      cached.wire.key = launch.step.key) :
    Sound node { daemon with
      steps := daemon.steps ++ [launch.step]
      requests := without daemon.requests launch
      msgCache := [], ahead := daemon.msgCache
      replaying := some launch.step.key } := by
  have issued := sound.books.requested launch requested
  have nothing := sound.loop.idle idle
  have cache : daemon.cache = daemon.msgCache := by
    unfold Daemon.cache
    rw [nothing, append_nil]
  have still : ∀ key, (∃ other ∈ daemon.requests, other.step.key = key) →
        (∃ other ∈ without daemon.requests launch, other.step.key = key)
          ∨ some launch.step.key = some key := by
    rintro key ⟨other, member, same⟩
    by_cases equal : other.step.key = launch.step.key
    · refine .inr ?_
      rw [← same, equal]
    · exact .inl ⟨other, mem_filter.mpr ⟨member, by simpa using equal⟩, same⟩
  refine ⟨sound.books_launch requested, ⟨?_, ?_, ?_, ?_, ?_⟩,
    ⟨fun none_ => absurd none_ (by simp), fun key now => ?_,
      sound.loop.rejects, sound.loop.touched⟩⟩
  · have perm := sound.traffic.perm
    rw [cache] at perm
    exact perm
  · intro cached member
    exact sound.traffic.entry cached (cache ▸ member)
  · intro cached member unread
    have inside : cached ∈ daemon.cache := cache ▸ member
    rcases sound.traffic.waiting cached inside unread with waits | now
    · rcases still _ waits with waits | now
      · exact .inl waits
      · exact .inr ⟨now, member⟩
    · rw [idle] at now
      exact absurd now.1 (by simp)
  · intro cached member read
    exact sound.traffic.spent cached (cache ▸ member) read
  · intro wire member
    rcases sound.traffic.unsent wire member with waits | now
    · exact still _ waits
    · rw [idle] at now
      exact absurd now (by simp)
  · have same : launch.step.key = key := by simpa using now
    refine ⟨launch, same, issued, leads, handled_without.mpr (.inl rfl),
      ⟨launch.step, mem_append_right _ (mem_singleton_self _), rfl⟩,
      fun cached member replays => ?_⟩
    have key := own cached member replays
    refine ⟨key, ?_⟩
    by_contra read
    refine sound.not_applied requested key ?_
    exact sound.traffic.spent cached (cache ▸ member) (by simpa using read)

theorem Sound.launch (sound : Sound node daemon)
    (idle : daemon.replaying = none) {launch : Launch}
    (requested : launch ∈ daemon.requests) (ok : Bool)
    (own : launch.leads = true → ∀ cached ∈ daemon.msgCache,
      cached.replays launch.step = true → cached.wire.key = launch.step.key) :
    Sound node (perform node daemon (.launch launch ok)) := by
  have issued := sound.books.requested launch requested
  show Sound node (handleLaunchTasks daemon launch ok)
  unfold handleLaunchTasks
  cases leader : launch.leader with
  | false =>
    have plain : launch.leads = false := by simp [Launch.leads, leader]
    exact sound.launch_plain idle requested plain
  | true =>
    by_cases single : launch.step.packStepCount = 1
    · have plain : launch.leads = false := by simp [Launch.leads, single]
      have added := sound.launch_plain idle requested plain
      have unhandled : ¬Handled daemon.requests launch.step.key :=
        fun handled => handled launch requested rfl
      have handled : Handled (without daemon.requests launch)
          launch.step.key := handled_without.mpr (.inl rfl)
      have unstarted : launch.step.key ∉ daemon.starts.map Step.key := by
        intro started
        obtain ⟨step, member, key⟩ := mem_map.mp started
        obtain ⟨owner, -, is_key, was⟩ := sound.books.begun step member
        rw [is_key, key] at was
        exact unhandled was
      have started : Sound node { daemon with
          steps := daemon.steps ++ [launch.step]
          requests := without daemon.requests launch
          starts := daemon.starts ++ [launch.step] } := by
        refine ⟨?_, ⟨added.traffic.perm, added.traffic.entry,
          added.traffic.waiting, added.traffic.spent,
          added.traffic.unsent⟩, ⟨sound.loop.idle, fun key now => ?_,
            sound.loop.rejects, sound.loop.touched⟩⟩
        · apply Books.begin (added.books.weaken _) issued rfl handled unstarted
          intro leads
          rw [plain] at leads
          exact absurd leads (by simp)
        · have now : daemon.replaying = some key := now
          rw [idle] at now
          exact absurd now (by simp)
      simp only [Bool.true_eq_false, if_false, if_pos single]
      unfold Daemon.execStep
      cases ok with
      | true => exact started
      | false =>
        apply started.deleteStep idle issued handled rfl rfl
        intro _
        exact mem_map_of_mem (mem_append_right _ (mem_singleton_self _))
    · have leads : launch.leads = true := by
        simp [Launch.leads, leader, single]
      simp only [Bool.true_eq_false, if_false, if_neg single]
      exact sound.launch_leads idle requested leads (own leads)

/-! ## Cached messages are replayed -/

/-- The loop is done: messages of the step are purged and its own is sent. -/
theorem Sound.finish {daemon : Daemon} (sound : Sound node daemon) {launch : Launch}
    (now : daemon.replaying = some launch.step.key) (at_end : daemon.ahead = [])
    (issued : launch ∈ daemon.issued) (handled : Handled daemon.requests launch.step.key)
    {hID : HeadID} (same : hID = launch.step.hID) :
    Sound node { daemon.deleteCachedMsg hID with
      replaying := none
      wire := daemon.wire ++ daemon.unsent.filter fun wire => wire.key = launch.step.key
      unsent := daemon.unsent.filter fun wire => wire.key ≠ launch.step.key } := by
  have purged := sound.traffic.purge (sound.traffic.purged_read sound.books
    at_end issued handled same)
  have no_more : daemon.ahead.filter (fun cached => !cached.purged hID) = [] := by
    rw [at_end]
    rfl
  refine ⟨sound.books, ⟨?_, purged.entry, ?_, purged.spent, ?_⟩,
    ⟨fun _ => no_more, fun key none_ => absurd none_ (by simp),
      sound.loop.rejects, sound.loop.touched⟩⟩
  · show ([] ++ ((daemon.wire ++ daemon.unsent.filter
        fun wire : Wire => wire.key = launch.step.key)
      ++ (fresh (daemon.deleteCachedMsg hID).cache
        ++ (daemon.unsent.filter (fun wire : Wire =>
            wire.key ≠ launch.step.key)
          ++ daemon.applied.map Prod.fst)))).Perm daemon.sent
    refine List.Perm.trans ?_ purged.perm
    apply perm_iff_count.mpr
    intro wire
    have complement : (fun wire : Wire =>
        decide (wire.key ≠ launch.step.key))
          = fun wire => !decide (wire.key = launch.step.key) := by
      funext wire
      simp
    have parts := (filter_append_perm
      (fun wire : Wire => decide (wire.key = launch.step.key))
      daemon.unsent).count_eq wire
    rw [← complement, count_append] at parts
    have unsent : (daemon.deleteCachedMsg hID).unsent = daemon.unsent := rfl
    have wires : (daemon.deleteCachedMsg hID).wire = daemon.wire := rfl
    have applied : (daemon.deleteCachedMsg hID).applied = daemon.applied := rfl
    simp only [count_append, unsent, wires, applied]
    omega
  · intro cached member unread
    rcases purged.waiting cached member unread with waits | ⟨-, ahead⟩
    · exact .inl waits
    · have inside : cached ∈ daemon.ahead.filter (fun cached => !cached.purged hID) := ahead
      rw [no_more] at inside
      exact absurd inside not_mem_nil
  · intro wire member
    obtain ⟨inside, different⟩ := mem_filter.mp member
    rcases sound.traffic.unsent wire inside with waits | at_work
    · exact .inl waits
    · rw [now] at at_work
      have equal : launch.step.key = wire.key := by simpa using at_work
      simp [equal] at different

/-- The loop passes a message of another step. -/
theorem Sound.skip (sound : Sound node daemon) {launch : Launch}
    (now : daemon.replaying = some launch.step.key) (issued : launch ∈ daemon.issued)
    (ahead : daemon.ahead = cached :: rest) (other : ¬cached.replays launch.step = true) :
    Sound node { daemon with
      msgCache := daemon.msgCache ++ [cached], ahead := rest } := by
  have cache : daemon.cache = daemon.msgCache ++ [cached] ++ rest := by
    unfold Daemon.cache
    rw [ahead, append_assoc, singleton_append]
  refine ⟨sound.books, ⟨?_, ?_, ?_, ?_, sound.traffic.unsent⟩,
    ⟨fun none_ => ?_, fun key at_work => ?_, sound.loop.rejects, sound.loop.touched⟩⟩
  · have perm := sound.traffic.perm
    rw [cache] at perm
    exact perm
  · exact fun entry member => sound.traffic.entry entry (cache ▸ member)
  · intro entry member unread
    rcases sound.traffic.waiting entry (cache ▸ member) unread with
      waits | ⟨at_work, inside⟩
    · exact .inl waits
    · refine .inr ⟨at_work, ?_⟩
      rw [ahead] at inside
      rcases mem_cons.mp inside with rfl | later
      · obtain ⟨sent, hID⟩ := sound.traffic.entry entry (cache ▸ member)
        have key : launch.step.key = entry.wire.key := by
          rw [now] at at_work
          simpa using at_work
        have of_launch := sound.books.launch_of issued sent key.symm
        have named := (sound.books.proper launch issued).named of_launch
        rw [← hID] at named
        exact absurd (replays_of_named named) other
      · exact later
  · exact fun entry member => sound.traffic.spent entry (cache ▸ member)
  · rw [now] at none_
    exact absurd none_ (by simp)
  · obtain ⟨owner, same, replays⟩ := sound.loop.replays key at_work
    refine ⟨owner, same, { replays with own := ?_ }⟩
    intro entry member
    apply replays.own entry
    rw [ahead]
    exact mem_cons_of_mem _ member

theorem Sound.replay (sound : Sound node daemon) {launch : Launch} (issued : launch ∈ daemon.issued)
    (handled : Handled daemon.requests launch.step.key) (ahead : daemon.ahead = cached :: rest)
    (own : cached.wire.key = launch.step.key) (unread : cached.read = false) :
    Sound node (handlePackInfo node { daemon with
      msgCache := daemon.msgCache ++ [{ cached with read := true }]
      ahead := rest } cached.wire cached.wire.msg true) := by
  have cache : daemon.cache = daemon.msgCache ++ [cached] ++ rest := by
    unfold Daemon.cache
    rw [ahead, append_assoc, singleton_append]
  have inside : cached ∈ daemon.cache := by
    rw [cache]
    exact mem_append_left _ (mem_append_right _ (mem_singleton_self _))
  have sent := (sound.traffic.entry cached inside).1
  have of_launch := sound.books.launch_of issued sent own
  have old : ∀ entry, entry ∈ daemon.msgCache ++ [{ cached with read := true }] ++ rest →
        entry ∈ daemon.cache ∨ entry = { cached with read := true } := by
    intro entry member
    rw [cache]
    rcases mem_append.mp member with member | later
    · rcases mem_append.mp member with before | now
      · exact .inl (mem_append_left _ (mem_append_left _ before))
      · exact .inr (mem_singleton.mp now)
    · exact .inl (mem_append_right _ later)
  have kept : fresh [cached] = [cached.wire] := by simp [fresh, unread]
  have once : cached.wire ∉ fresh daemon.msgCache := by
    have nodup := sound.traffic.perm.nodup_iff.mpr sound.books.nodup
    rw [nil_append] at nodup
    have caches := ((nodup_append.mp (nodup_append.mp nodup).2.1)).1
    rw [cache, fresh_append, fresh_append, kept] at caches
    have front := (nodup_append.mp caches).1
    intro before
    exact (nodup_append.mp front).2.2 _ before _ (mem_singleton_self _) rfl
  have traffic : Traffic { daemon with
      msgCache := daemon.msgCache ++ [{ cached with read := true }]
      ahead := rest } [cached.wire] := by
    refine ⟨?_, ?_, ?_, ?_, sound.traffic.unsent⟩
    · refine List.Perm.trans ?_ sound.traffic.perm
      have replayed : fresh [{ cached with read := true }] = [] := rfl
      show ([cached.wire] ++ (daemon.wire
        ++ (fresh (daemon.msgCache ++ [{ cached with read := true }] ++ rest)
          ++ (daemon.unsent ++ daemon.applied.map Prod.fst)))).Perm _
      rw [cache, fresh_append, fresh_append, fresh_append, fresh_append, kept, replayed]
      apply perm_iff_count.mpr
      intro wire
      simp only [count_append, count_nil]
      omega
    · intro entry member
      rcases old entry member with before | rfl
      · exact sound.traffic.entry entry before
      · exact sound.traffic.entry cached inside
    · intro entry member fresh_
      rcases old entry member with before | rfl
      · rcases sound.traffic.waiting entry before fresh_ with
          waits | ⟨at_work, here⟩
        · exact .inl waits
        · refine .inr ⟨at_work, ?_⟩
          rw [ahead] at here
          rcases mem_cons.mp here with rfl | later
          · rcases mem_append.mp member with member | later
            · rcases mem_append.mp member with twice | now
              · exact absurd (mem_fresh.mpr ⟨entry, twice, fresh_, rfl⟩) once
              · rw [mem_singleton.mp now] at fresh_
                exact absurd fresh_ (by simp)
            · exact later
          · exact later
      · exact absurd fresh_ (by simp)
    · intro entry member read
      rcases old entry member with before | rfl
      · exact mem_cons_of_mem _ (sound.traffic.spent entry before read)
      · exact mem_cons_self
  refine @applied_sound node { daemon with
      msgCache := daemon.msgCache ++ [{ cached with read := true }]
      ahead := rest } cached.wire sound.books traffic ?_ launch issued handled
        of_launch true (.inr rfl)
  refine ⟨fun none_ => ?_, fun key at_work => ?_, sound.loop.rejects, sound.loop.touched⟩
  · have nothing := sound.loop.idle none_
    rw [ahead] at nothing
    exact absurd nothing (by simp)
  · obtain ⟨owner, same, replays⟩ := sound.loop.replays key at_work
    refine ⟨owner, same, ⟨replays.issued, replays.leads, replays.handled,
      replays.listed, fun entry member => ?_⟩⟩
    apply replays.own entry
    rw [ahead]
    exact mem_cons_of_mem _ member

theorem Sound.iterate (sound : Sound node daemon)
    (at_work : daemon.replaying.isSome = true) (spent : InfoMsg) :
    Sound node (perform node daemon (.iterate spent true)) := by
  obtain ⟨key, now⟩ := Option.isSome_iff_exists.mp at_work
  obtain ⟨launch, rfl, replays⟩ := sound.loop.replays key now
  obtain ⟨issued, leads, handled, listed, own⟩ := replays
  show Sound node (PackInfo.iterate node daemon spent true)
  simp only [PackInfo.iterate, now]
  cases found : daemon.steps.find? fun step => step.key = launch.step.key with
  | none =>
    obtain ⟨step, inside, key⟩ := listed
    have out := find?_eq_none.mp found step inside
    exact absurd key (by simpa using out)
  | some step =>
    have inside := mem_of_find?_eq_some found
    have key : step.key = launch.step.key := by
      have test := find?_some found
      simpa using test
    obtain ⟨owner, owner_issued, -, grown⟩ := sound.books.grown step inside
    have equal := sound.books.unique owner owner_issued launch issued (grown.key.symm.trans key)
    rw [equal] at grown
    cases ahead : daemon.ahead with
    | nil => exact sound.finish now ahead issued handled grown.hID
    | cons cached rest =>
      have tests : cached.replays step = cached.replays launch.step := by
        unfold Cached.replays
        rw [grown.hID, grown.packJobid]
      have next : cached ∈ daemon.ahead := by
        rw [ahead]
        exact mem_cons_self
      simp only [tests]
      by_cases test : cached.replays launch.step = true
      · obtain ⟨is_own, unread⟩ := own cached next test
        simp only [if_pos test, unread, Bool.false_eq_true, if_false, ← now]
        exact sound.replay issued handled ahead is_own unread
      · simp only [if_neg test, ← now]
        exact sound.skip now issued ahead test

/-! ## Runs -/

theorem sound_start : Sound node Daemon.start := by
  refine ⟨?_, ?_, ?_⟩
  · refine ⟨?_, ?_, ?_, ?_, ?_, ?_, ?_, ?_, nodup_nil, ?_, nodup_nil,
      ?_, nodup_nil, ?_, nodup_nil, ?_, ?_, ?_⟩
    all_goals exact fun x member => absurd member not_mem_nil
  · refine ⟨List.Perm.refl _, ?_, ?_, ?_, ?_⟩
    all_goals exact fun x member => absurd member not_mem_nil
  · exact ⟨fun _ => rfl, fun key now => absurd now (by simp [Daemon.start]), rfl,
      rfl⟩

theorem Sound.delete (sound : Sound node daemon)
    (idle : daemon.replaying = none) (listed : step ∈ daemon.steps)
    (started : ∀ launch ∈ daemon.issued, launch.step.key = step.key →
      launch.leads = true → step.key ∈ daemon.starts.map Step.key) :
    Sound node (perform node daemon (.delete step)) := by
  obtain ⟨launch, issued, handled, grown⟩ := sound.books.grown step listed
  exact sound.deleteStep idle issued handled grown.key grown.hID
    (started launch issued grown.key.symm)

theorem sound_step (sound : Sound node daemon) {event : Event}
    (enabled : Enabled node daemon event) (fits : Fits node daemon event) :
    Sound node (perform node daemon event) := by
  cases event with
  | submit launch =>
    obtain ⟨proper, key, apart⟩ := enabled
    exact sound.submit proper key apart fits
  | launch launch ok => exact sound.launch enabled.1 enabled.2 ok fits
  | iterate spent ok =>
    have succeeds : ok = true := fits
    rw [succeeds]
    exact sound.iterate enabled spent
  | packInfo wire ok => exact sound.packInfo enabled.1 enabled.2 ok
  | delete step => exact sound.delete enabled.1 enabled.2.1 enabled.2.2

/-- Heterogeneous steps start once and complete while all of their infos are
fine, only messages of a step are replayed to it and no start in a replay fails. -/
theorem steps_started (node : Node) {daemon : Daemon}
    (reachable : (fittingSystem node).Reachable daemon) :
    Right node daemon := by
  have invariant : (fittingSystem node).Invariant (Sound node) :=
    { initial := by
        intro daemon start
        rw [show daemon = Daemon.start from start]
        exact sound_start
      step := by
        rintro before after sound ⟨event, enabled, fits, rfl⟩
        exact sound_step sound enabled fits }
  exact (invariant.reachable reachable).right

end Node

/-! ## A step of two components -/

def sampleNode : Node :=
  { myID := 1, getNumThrds := fun _ => 8, sluids := true
    allocs := [{ packID := noVal, jobid := 7 }] }

/-- A step of the job 7 with one task on each of two nodes. -/
def sampleStep : Step :=
  { key := 0, hID := ⟨5, 7, 0⟩, packJobid := noVal, packStepCount := 2
    packNtasks := 2, packTaskOffset := 0, np := 1, tpp := 1, argV := []
    slots := [⟨1, {0}⟩], numPackInfo := 0, rcvdPackInfos := 0
    rcvdPackProcs := 0, jobCompInfos := [] }

/-- The launch of the step; the second component sends `slots`. -/
def sampleLaunch (slots : SlotsData) : Launch :=
  { step := sampleStep, leader := true, mother := true
    others := [{ sender := 2, packJobid := noVal, hID := ⟨5, 7, 0⟩
                 firstRank := 1, np := 1, tpp := 1, argV := [], slots }] }

theorem sample_proper (slots : SlotsData) : (sampleLaunch slots).Proper sampleNode where
  jobCompInfos := rfl
  numPackInfo := rfl
  rcvdPackProcs := rfl
  rcvdPackInfos := rfl
  plain := fun plain => absurd plain (show ¬true = false by decide)
  count := fun _ => ⟨Nat.one_lt_two, rfl⟩
  ids := by
    intro wire member
    rcases mem_cons.mp member with rfl | member
    · exact ⟨rfl, rfl, fun _ => rfl⟩
    · rw [mem_singleton.mp member]
      exact ⟨rfl, rfl, fun _ => rfl⟩
  total := fun _ => ⟨rfl, show 2 < 2 ^ 32 by decide⟩
  alloc := fun _ => rfl

/-- The slots of the second component. -/
def sampleSlots : SlotsData := { len := 1, slots := [⟨2, {0}⟩], intact := true }

theorem sample_fine : (sampleLaunch sampleSlots).Fine sampleNode where
  counted := by decide
  accepted := by
    intro wire member
    rcases mem_cons.mp member with rfl | member
    · exact ⟨by decide, rfl, Nat.one_pos⟩
    · rw [mem_singleton.mp member]
      exact ⟨by decide, rfl, Nat.one_pos⟩

theorem steps_started_sample :
    Right sampleNode (perform sampleNode .start (.submit (sampleLaunch sampleSlots))) := by
  refine steps_started sampleNode (.step (.initial rfl)
    ⟨.submit (sampleLaunch sampleSlots), ⟨sample_proper _, rfl, ?_⟩,
      fun _ => sample_fine, rfl⟩)
  exact fun other member => absurd member not_mem_nil

/-! ## A rejected message counts -/

/-- What `addSlotsToMsg()` writes when it cannot tell the CPUs. -/
def noSlots : SlotsData := { len := 0, slots := [], intact := true }

def waitingLeader : Daemon :=
  iterate sampleNode
    (handleLaunchTasks
      (perform sampleNode .start (.submit (sampleLaunch noSlots)))
      (sampleLaunch noSlots) true)
    (sendPackInfo sampleNode sampleStep) true

theorem waitingLeader_reachable : (packSystem sampleNode).Reachable waitingLeader := by
  refine .step (.step (.step (.initial rfl)
    ⟨.submit (sampleLaunch noSlots), ⟨sample_proper _, rfl, ?_⟩, rfl⟩)
    ⟨.launch (sampleLaunch noSlots) true, ⟨rfl, mem_singleton_self _⟩,
      rfl⟩) ⟨.iterate (sendPackInfo sampleNode sampleStep) true, rfl, rfl⟩
  exact fun other member => absurd member not_mem_nil

/-- The message of the second component. -/
def rejectedWire : Wire :=
  ⟨0, 0, { sender := 2, packJobid := noVal, hID := ⟨5, 7, 0⟩, firstRank := 1
           np := 1, tpp := 1, argV := [], slots := noSlots }⟩

/-- The message of the leader itself. -/
def ownWire : Wire := ⟨0, 1, sendPackInfo sampleNode sampleStep⟩

def startedLeader : Daemon :=
  perform sampleNode (perform sampleNode waitingLeader (.packInfo rejectedWire true))
    (.packInfo ownWire true)

/-- The step is started with the info of one component only. -/
theorem not_steps_started :
    ¬∀ node daemon, (packSystem node).Reachable daemon → Right node daemon := by
  intro all
  have reachable : (packSystem sampleNode).Reachable startedLeader := by
    refine .step (.step waitingLeader_reachable ⟨.packInfo rejectedWire true, ⟨rfl, ?_⟩, rfl⟩)
      ⟨.packInfo ownWire true, ⟨rfl, ?_⟩, rfl⟩
    · decide +kernel
    · decide +kernel
  have lengths : startedLeader.starts.map (fun step =>
      (step.key, step.jobCompInfos.length)) = [(0, 1)] := by
    decide +kernel
  obtain ⟨step, member, same⟩ := mem_map.mp
    (show (0, 1) ∈ startedLeader.starts.map fun step =>
      (step.key, step.jobCompInfos.length) by
        rw [lengths]
        exact mem_singleton_self _)
  obtain ⟨key, length⟩ := Prod.mk.inj same
  have complete := (all _ _ reachable).complete step member
    (sampleLaunch noSlots) (mem_singleton_self _) key.symm rfl
  have both : step.jobCompInfos.length = 2 := complete.length
  rw [length] at both
  exact absurd both (by decide)

end Psmgmt.Slurm.PackInfo
