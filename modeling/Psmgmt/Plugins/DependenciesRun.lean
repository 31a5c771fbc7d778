import Psmgmt.Plugins.Graph

/-!
# Plugins that others depend on

Each function of the daemon keeps the graph of plugins, and a plugin is only
cleaned up or closed when nothing triggers it that is not marked for unload.
-/

namespace Psmgmt.Plugins

open List Bool

/-! ## Finalizing what is not triggered any more -/

/-- What functions of the daemon keep between loads. -/
structure Next (before after : Daemon) : Prop where
  graph : Graph after none
  calls : Calls after
  pluginList : after.pluginList = before.pluginList
  stack : after.stack = before.stack

theorem Next.trans {first second third : Daemon} (left : Next first second)
    (right : Next second third) : Next first third :=
  ⟨right.graph, right.calls, right.pluginList.trans left.pluginList,
    right.stack.trans left.stack⟩

theorem Going.next {before after : Daemon} (going : Going none before after) : Next before after :=
  ⟨going.graph, going.calls, going.same.pluginList, going.same.stack⟩

variable {key : Nat}

section Flat

variable {callbacks : Callbacks} (flat : callbacks.Flat) {daemon : Daemon}

include flat

theorem going_remTrigger {gap : Option (Nat × Nat)} {trigger : Nat}
    (graph : Graph (daemon.eraseTrigger key trigger) gap) (calls : Calls daemon)
    (member : key ∈ daemon.pluginList) (present : trigger ∈ (daemon.plugin key).triggers) :
    Going gap (daemon.eraseTrigger key trigger) (remTrigger callbacks daemon key trigger) := by
  have calls_erased := calls.cut (cut_eraseTrigger daemon key trigger)
  unfold remTrigger
  rw [if_pos present]
  show Going gap _ (if ((daemon.eraseTrigger key trigger).plugin key).triggers
    = [] then finalizePlugin callbacks (daemon.eraseTrigger key trigger) key
      else daemon.eraseTrigger key trigger)
  split
  · exact going_finalize flat graph calls_erased member
  · exact ⟨Same.refl _, graph, calls_erased⟩

theorem next_remTrigger_self (graph : Graph daemon none) (calls : Calls daemon)
    (member : key ∈ daemon.pluginList) :
    Next daemon (remTrigger callbacks daemon key key) := by
  by_cases present : key ∈ (daemon.plugin key).triggers
  · have going := going_remTrigger flat (graph.eraseSelf key) calls member present
    exact ⟨going.graph, going.calls, going.same.pluginList, going.same.stack⟩
  · unfold remTrigger
    rw [if_neg present]
    exact ⟨graph, calls, rfl, rfl⟩

/-! ## A plugin is closed -/

/-- What is left of a plugin while its dependencies are released. -/
structure Closing (key : Nat) (deps : List Nat) (daemon : Daemon) : Prop where
  graph : Graph daemon none
  calls : Calls daemon
  listed : key ∈ daemon.pluginList
  marked : (daemon.plugin key).unload = true
  triggers : (daemon.plugin key).triggers = []
  depends : (daemon.plugin key).depends = deps

theorem Closing.step {depend : Nat} {deps : List Nat}
    (closing : Closing key (depend :: deps) daemon) :
    Closing key deps (remDepend (remTrigger callbacks daemon depend key) key depend)
      ∧ (remDepend (remTrigger callbacks daemon depend key) key
        depend).pluginList = daemon.pluginList
      ∧ (remDepend (remTrigger callbacks daemon depend key) key depend).stack = daemon.stack := by
  obtain ⟨graph, calls, listed, marked, triggers, depends⟩ := closing
  have is_depend : depend ∈ (daemon.plugin key).depends := by
    rw [depends]
    exact mem_cons_self
  have present := (graph.depends key listed).2 depend is_depend
  by_cases self : depend = key
  · rw [self]
    have absent : key ∉ (daemon.plugin key).triggers := by
      rw [triggers]
      exact not_mem_nil
    have kept : remTrigger callbacks daemon key key = daemon := if_neg absent
    rw [kept]
    refine ⟨⟨graph.forgetSelf marked, calls.cut (cut_remDepend _ _ _), listed,
      ?_, ?_, ?_⟩, rfl, rfl⟩
    · rw [(cut_remDepend daemon key key).unload]
      exact marked
    · rw [remDepend_triggers]
      exact triggers
    · unfold remDepend
      rw [change_same, depends, ← self]
      exact erase_cons_head ..
  · have is_trigger : key ∈ (daemon.plugin depend).triggers := by
      rcases graph.back depend present key listed self is_depend with
        trigger | gap
      · exact trigger
      · exact absurd gap (by simp)
    have going := going_remTrigger flat (graph.openGap marked) calls present is_trigger
    generalize remTrigger callbacks daemon depend key = removed at going
    have gone : key ∉ (removed.plugin depend).triggers := by
      rw [going.same.triggers]
      exact not_mem_eraseTrigger (graph.triggers depend present).1
    have listed_removed : key ∈ removed.pluginList := by
      rw [going.same.pluginList]
      exact listed
    have marked_removed := going.graph.closing depend key rfl
    refine ⟨⟨going.graph.closeGap listed_removed gone,
      going.calls.cut (cut_remDepend _ _ _), listed_removed, ?_, ?_, ?_⟩,
      going.same.pluginList, going.same.stack⟩
    · rw [(cut_remDepend removed key depend).unload]
      exact marked_removed
    · rw [remDepend_triggers, going.same.triggers]
      unfold Daemon.eraseTrigger
      rw [change_other (Ne.symm self)]
      exact triggers
    · unfold remDepend
      rw [change_same, going.same.depends, eraseTrigger_depends, depends]
      exact erase_cons_head ..

theorem Closing.run {deps : List Nat} (closing : Closing key deps daemon) :
    Closing key [] (deps.foldl (fun daemon depend =>
        remDepend (remTrigger callbacks daemon depend key) key depend) daemon)
      ∧ (deps.foldl (fun daemon depend =>
        remDepend (remTrigger callbacks daemon depend key) key depend)
          daemon).pluginList = daemon.pluginList
      ∧ (deps.foldl (fun daemon depend =>
        remDepend (remTrigger callbacks daemon depend key) key depend)
          daemon).stack = daemon.stack := by
  induction deps generalizing daemon with
  | nil => exact ⟨closing, rfl, rfl⟩
  | cons depend deps induction =>
    obtain ⟨after, pluginList, stack⟩ := closing.step flat
    obtain ⟨done_, pluginList_run, stack_run⟩ := induction after
    exact ⟨done_, pluginList_run.trans pluginList, stack_run.trans stack⟩

omit flat in
/-- A plugin without references is closed. -/
theorem Closing.close (closing : Closing key [] daemon) :
    Graph (daemon.close key) none ∧ Calls (daemon.close key) := by
  obtain ⟨graph, calls, listed, marked, triggers, depends⟩ := closing
  have old : ∀ other ∈ (daemon.close key).pluginList, other ∈ daemon.pluginList ∧ other ≠ key := by
    intro other member
    obtain ⟨different, member⟩ := (graph.nodup.mem_erase_iff).mp member
    exact ⟨member, different⟩
  have untriggered : Untriggered daemon key := by
    intro trigger inside
    rw [triggers] at inside
    exact absurd inside not_mem_nil
  refine ⟨⟨graph.nodup.erase key, ?_, ?_, ?_, ?_, ?_, graph.closing, ?_, ?_⟩,
    calls.finalizes, calls.finalized, calls.cleanups, calls.cleaned,
    (graph.unbroken listed untriggered).trans calls.unbroken⟩
  · exact fun other member => graph.recent other (old other member).1
  · intro other member
    obtain ⟨inside, different⟩ := old other member
    obtain ⟨nodup, present⟩ := graph.triggers other inside
    refine ⟨nodup, fun trigger is_trigger => ?_⟩
    refine (graph.nodup.mem_erase_iff).mpr ⟨?_, present trigger is_trigger⟩
    rintro rfl
    have none_ := graph.forth other inside trigger listed different is_trigger
    rw [depends] at none_
    exact absurd none_ not_mem_nil
  · intro other member
    obtain ⟨inside, different⟩ := old other member
    obtain ⟨nodup, present⟩ := graph.depends other inside
    refine ⟨nodup, fun depend is_depend => ?_⟩
    refine (graph.nodup.mem_erase_iff).mpr ⟨?_, present depend is_depend⟩
    rintro rfl
    rcases graph.back depend listed other inside (Ne.symm different) is_depend with none_ | gap
    · rw [triggers] at none_
      exact absurd none_ not_mem_nil
    · exact absurd gap (by simp)
  · exact fun left inside right member => graph.forth left (old left inside).1
      right (old right member).1
  · exact fun left inside right member => graph.back left (old left inside).1
      right (old right member).1
  · exact fun other member => graph.uses other (old other member).1
  · exact fun other member => graph.quiet other (old other member).1

theorem doUnload_sound (graph : Graph daemon none) (calls : Calls daemon)
    (listed : key ∈ daemon.pluginList) :
    Graph (doUnload callbacks daemon key) none
      ∧ Calls (doUnload callbacks daemon key)
      ∧ (doUnload callbacks daemon key).stack = daemon.stack
      ∧ ∀ other ∈ daemon.pluginList, other ≠ key →
        other ∈ (doUnload callbacks daemon key).pluginList := by
  unfold doUnload
  by_cases unmarked : (daemon.plugin key).unload = false
  · rw [if_pos unmarked]
    exact ⟨graph, calls, rfl, fun _ member _ => member⟩
  rw [if_neg unmarked]
  by_cases triggers : (daemon.plugin key).triggers = []
  case neg =>
    rw [if_pos triggers]
    exact ⟨graph, calls, rfl, fun _ member _ => member⟩
  rw [if_neg (by simpa using triggers)]
  have closing : Closing key (daemon.plugin key).depends daemon :=
    ⟨graph, calls, listed, by simpa using unmarked, triggers, rfl⟩
  obtain ⟨released, pluginList, stack⟩ := closing.run flat
  obtain ⟨graph_closed, calls_closed⟩ := released.close
  refine ⟨graph_closed, calls_closed, stack, fun other member different => ?_⟩
  apply (mem_erase_of_ne different).mpr
  rw [show ∀ daemon : Daemon, (daemon.noteBroken key).pluginList
    = daemon.pluginList from fun _ => rfl, pluginList]
  exact member

/-! ## The main loop -/

theorem handlePlugin_sound (graph : Graph daemon none) (calls : Calls daemon)
    (listed : key ∈ daemon.pluginList) :
    Graph (handlePlugin callbacks daemon key) none
      ∧ Calls (handlePlugin callbacks daemon key)
      ∧ (handlePlugin callbacks daemon key).stack = daemon.stack
      ∧ ∀ other ∈ daemon.pluginList, other ≠ key →
        other ∈ (handlePlugin callbacks daemon key).pluginList := by
  unfold handlePlugin
  dsimp only
  generalize is_timed : (if ((daemon.plugin key).finalized
      && !(daemon.plugin key).unload
      && (daemon.plugin key).grace.any fun grace => grace < daemon.now) = true
    then unloadPlugin callbacks daemon key else daemon) = timed
  have going : Going none daemon timed := by
    rw [← is_timed]
    split
    · next late =>
        simp only [and_eq_true] at late
        exact going_unload flat graph calls listed (.inl late.1.1)
    · exact ⟨Same.refl daemon, graph, calls⟩
  split
  · have inside : key ∈ timed.pluginList := by
      rw [going.same.pluginList]
      exact listed
    obtain ⟨graph_after, calls_after, stack, kept⟩ :=
      doUnload_sound flat going.graph going.calls inside
    refine ⟨graph_after, calls_after, stack.trans going.same.stack,
      fun other member => kept other ?_⟩
    rw [going.same.pluginList]
    exact member
  · refine ⟨going.graph, going.calls, going.same.stack, fun other member _ => ?_⟩
    rw [going.same.pluginList]
    exact member

theorem handle_run {keys : List Nat} (nodup : keys.Nodup) (graph : Graph daemon none)
    (calls : Calls daemon) (listed : ∀ key ∈ keys, key ∈ daemon.pluginList) :
    Graph (keys.foldl (handlePlugin callbacks) daemon) none
      ∧ Calls (keys.foldl (handlePlugin callbacks) daemon)
      ∧ (keys.foldl (handlePlugin callbacks) daemon).stack = daemon.stack := by
  induction keys generalizing daemon with
  | nil => exact ⟨graph, calls, rfl⟩
  | cons key keys induction =>
    obtain ⟨absent, nodup⟩ := nodup_cons.mp nodup
    obtain ⟨graph_after, calls_after, stack, kept⟩ :=
      handlePlugin_sound flat graph calls (listed key mem_cons_self)
    obtain ⟨graph_run, calls_run, stack_run⟩ := induction nodup graph_after
      calls_after fun other member => by
        apply kept other (listed other (mem_cons_of_mem _ member))
        intro same
        exact absent (same ▸ member)
    exact ⟨graph_run, calls_run, stack_run.trans stack⟩

/-! ## Forced unload -/

omit flat in
theorem next_change (graph : Graph daemon none) (calls : Calls daemon) (key : Nat)
    (change : Plugin → Plugin) (triggers : ∀ plugin, (change plugin).triggers = plugin.triggers)
    (depends : ∀ plugin, (change plugin).depends = plugin.depends)
    (uses : ∀ plugin, (change plugin).uses = plugin.uses)
    (unload : ∀ plugin, (change plugin).unload = plugin.unload)
    (finalized : ∀ plugin, (change plugin).finalized = plugin.finalized) :
    Next daemon (daemon.change key change) :=
  (going_change graph calls key change triggers depends uses unload finalized).next

theorem next_walk (graph : Graph daemon none) (calls : Calls daemon)
    (listed : key ∈ daemon.pluginList) (distance depth : Nat) :
    Next daemon (walkDepGraph callbacks daemon key distance depth) := by
  induction depth generalizing daemon key distance with
  | zero => exact ⟨graph, calls, rfl, rfl⟩
  | succ deeper induction =>
    unfold walkDepGraph
    split
    · exact next_change graph calls key _ (fun _ => rfl) (fun _ => rfl)
        (fun _ => rfl) (fun _ => rfl) (fun _ => rfl)
    split
    · exact ⟨graph, calls, rfl, rfl⟩
    split
    · exact ⟨graph, calls, rfl, rfl⟩
    split
    · exact next_change graph calls key _ (fun _ => rfl) (fun _ => rfl)
        (fun _ => rfl) (fun _ => rfl) (fun _ => rfl)
    dsimp only
    have graced := next_change graph calls key
      (fun plugin => { plugin with distance, grace := some daemon.now }) (fun _ => rfl)
      (fun _ => rfl) (fun _ => rfl) (fun _ => rfl) (fun _ => rfl)
    generalize (daemon.change key fun plugin =>
      { plugin with distance, grace := some daemon.now }) = marked at graced
    have removed := next_remTrigger_self flat graced.graph graced.calls (graced.pluginList ▸ listed)
    generalize remTrigger callbacks marked key key = after at removed
    have both := graced.trans removed
    split
    · exact both.trans (next_change both.graph both.calls key _
        (fun _ => rfl) (fun _ => rfl) (fun _ => rfl) (fun _ => rfl)
        (fun _ => rfl))
    · have walked : ∀ (triggers : List Nat) (state : Daemon × Bool),
          Next daemon state.1 →
          (∀ trigger ∈ triggers, trigger ∈ daemon.pluginList) →
            Next daemon (triggers.foldl (fun state trigger =>
              if (state.1.plugin trigger).unload then state
              else
                (walkDepGraph callbacks state.1 trigger (distance + 1) deeper,
                  state.2 && ((walkDepGraph callbacks state.1 trigger
                    (distance + 1) deeper).plugin trigger).cleared))
              state).1 := by
        intro triggers
        induction triggers with
        | nil => exact fun state now _ => now
        | cons trigger triggers walk =>
          intro state now present
          rw [foldl_cons]
          apply walk
          · split
            · exact now
            · apply now.trans
              apply induction now.graph now.calls
              rw [now.pluginList]
              exact present trigger mem_cons_self
          · exact fun other member => present other (mem_cons_of_mem _ member)
      have all := walked (after.plugin key).triggers (after, true) both
        fun trigger member => by
          rw [← both.pluginList]
          exact (both.graph.triggers key (both.pluginList ▸ listed)).2 trigger member
      generalize (after.plugin key).triggers.foldl _ (after, true) = done_
        at all
      have cleared := all.trans (next_change all.graph all.calls key
        (fun plugin => { plugin with cleared := done_.2 })
        (fun _ => rfl) (fun _ => rfl) (fun _ => rfl) (fun _ => rfl)
        (fun _ => rfl))
      split
      · exact cleared
      · exact ⟨⟨cleared.graph.nodup, cleared.graph.recent,
          cleared.graph.triggers, cleared.graph.depends, cleared.graph.forth,
          cleared.graph.back, cleared.graph.closing, cleared.graph.uses,
          cleared.graph.quiet⟩, ⟨cleared.calls.finalizes,
          cleared.calls.finalized, cleared.calls.cleanups,
          cleared.calls.cleaned, cleared.calls.unbroken⟩,
          cleared.pluginList, cleared.stack⟩

omit flat in
theorem findMaxDistPlugin_listed {victim : Nat}
    (found : findMaxDistPlugin daemon = some victim) :
    victim ∈ daemon.pluginList := by
  have search : ∀ (keys : List Nat) (most : Option Nat),
      (∀ key, most = some key → key ∈ daemon.pluginList) →
      (∀ key ∈ keys, key ∈ daemon.pluginList) → ∀ key,
        keys.foldl (fun maxDist key =>
          if (daemon.plugin key).distance ≠ 0 && !(daemon.plugin key).cleared
              && maxDist.all fun most =>
                (daemon.plugin most).distance < (daemon.plugin key).distance
          then some key else maxDist) most = some key → key ∈ daemon.pluginList := by
    intro keys
    induction keys with
    | nil => exact fun most listed _ => listed
    | cons first keys induction =>
      intro most listed members
      rw [foldl_cons]
      apply induction
      · intro key is_key
        split at is_key
        · rw [← Option.some.inj is_key]
          exact members first mem_cons_self
        · exact listed key is_key
      · exact fun other member => members other (mem_cons_of_mem _ member)
  exact search daemon.pluginList none (fun key none_ => absurd none_ (by simp))
    (fun key member => member) victim found

theorem cutVictim_run {victim : Nat} {triggers : List Nat} (nodup : triggers.Nodup)
    (present : ∀ trigger ∈ triggers, trigger ∈ (daemon.plugin victim).triggers)
    (graph : Graph daemon none) (calls : Calls daemon) (noted : victim ∈ daemon.victims)
    (listed : victim ∈ daemon.pluginList) :
    Next daemon (triggers.foldl (fun daemon trigger =>
      remTrigger callbacks (remDepend daemon trigger victim) victim trigger) daemon) := by
  induction triggers generalizing daemon with
  | nil => exact ⟨graph, calls, rfl, rfl⟩
  | cons trigger triggers induction =>
    obtain ⟨absent, nodup⟩ := nodup_cons.mp nodup
    have is_trigger := present trigger mem_cons_self
    have inside := (graph.triggers victim listed).2 trigger is_trigger
    have going := going_remTrigger flat
      (graph.cutVictim noted listed inside)
      (calls.cut (cut_remDepend daemon trigger victim)) listed (by
        rw [remDepend_triggers]
        exact is_trigger)
    rw [foldl_cons]
    generalize remTrigger callbacks (remDepend daemon trigger victim) victim
      trigger = after at going
    have one : Next daemon after :=
      ⟨going.graph, going.calls, going.same.pluginList, going.same.stack⟩
    refine one.trans (induction nodup ?_ going.graph going.calls ?_ ?_)
    · intro other member
      rw [going.same.triggers]
      apply mem_eraseTrigger
      · rw [remDepend_triggers]
        exact present other (mem_cons_of_mem _ member)
      · refine .inr fun same => ?_
        exact absent (same ▸ member)
    · rw [going.same.victims]
      exact noted
    · rw [going.same.pluginList]
      exact listed

theorem next_kick (graph : Graph daemon none) (calls : Calls daemon)
    {victim : Nat} (listed : victim ∈ daemon.pluginList) :
    Next daemon (kickVictim callbacks daemon victim) := by
  have graph_noted : Graph { daemon with
      victims := daemon.victims ++ [victim] } none := by
    refine ⟨graph.nodup, graph.recent, graph.triggers, graph.depends,
      graph.forth, graph.back, graph.closing, ?_, graph.quiet⟩
    intro key member unmarked used inside
    rcases graph.uses key member unmarked used inside with depends | before
    · exact .inl depends
    · exact .inr (mem_append_left _ before)
  have calls_noted : Calls { daemon with
      victims := daemon.victims ++ [victim] } :=
    ⟨calls.finalizes, calls.finalized, calls.cleanups, calls.cleaned, calls.unbroken⟩
  have cut := @cutVictim_run callbacks flat { daemon with victims := daemon.victims ++ [victim] }
    victim (daemon.plugin victim).triggers (graph.triggers victim listed).1
    (fun trigger member => member) graph_noted calls_noted
    (mem_append_right _ (mem_singleton_self victim)) listed
  have cleared := cut.trans (next_change cut.graph cut.calls victim
    (fun plugin => { plugin with cleared := true }) (fun _ => rfl)
    (fun _ => rfl) (fun _ => rfl) (fun _ => rfl) (fun _ => rfl))
  exact ⟨cleared.graph, cleared.calls, cleared.pluginList, cleared.stack⟩

theorem next_force (graph : Graph daemon none) (calls : Calls daemon)
    (listed : key ∈ daemon.pluginList) (depth rounds : Nat) :
    Next daemon (forceUnload callbacks daemon key depth rounds) := by
  induction rounds generalizing daemon with
  | zero => exact ⟨graph, calls, rfl, rfl⟩
  | succ again induction =>
    unfold forceUnload
    dsimp only
    have graph_reset : Graph { daemon with depLoopDetect := false } none :=
      ⟨graph.nodup, graph.recent, graph.triggers, graph.depends, graph.forth,
        graph.back, graph.closing, graph.uses, graph.quiet⟩
    have calls_reset : Calls { daemon with depLoopDetect := false } :=
      ⟨calls.finalizes, calls.finalized, calls.cleanups, calls.cleaned, calls.unbroken⟩
    have walked := next_walk flat graph_reset calls_reset listed 1 depth
    generalize walkDepGraph callbacks { daemon with depLoopDetect := false }
      key 1 depth = after at walked
    have now : Next daemon after := ⟨walked.graph, walked.calls, walked.pluginList, walked.stack⟩
    split
    · cases found : findMaxDistPlugin after with
      | none => exact now
      | some victim =>
        have kicked := now.trans (next_kick flat now.graph now.calls
          (findMaxDistPlugin_listed found))
        apply kicked.trans
        apply induction kicked.graph kicked.calls
        rw [kicked.pluginList]
        exact listed
    · exact now

end Flat

/-! ## Loads -/

/-- What holds in every run whose events fit. -/
structure Sound (daemon : Daemon) : Prop where
  graph : Graph daemon none
  calls : Calls daemon
  loading : Loading daemon

variable {daemon : Daemon} {frame : Frame} {rest : List Frame}

theorem Loading.idle (idle : daemon.stack = []) : Loading daemon := by
  refine ⟨?_, fun frame member => ?_⟩
  · rw [idle]
    exact nodup_nil
  · rw [idle] at member
    exact absurd member not_mem_nil

theorem Next.sound {before after : Daemon} (next : Next before after)
    (idle : before.stack = []) : Sound after :=
  ⟨next.graph, next.calls, Loading.idle (next.stack.trans idle)⟩

section Link

variable {daemon : Daemon} (key : Nat) (trigger : Option Nat) (other : Nat)

theorem link_triggers : ((daemon.link key trigger).plugin other).triggers
    = if other = key then
        addRef (daemon.plugin key).triggers (trigger.getD key)
      else (daemon.plugin other).triggers := by
  unfold Daemon.link
  cases trigger with
  | none =>
    by_cases same : other = key
    · rw [if_pos same, same, change_same]
      rfl
    · rw [if_neg same, change_other same]
  | some trigger =>
    rw [change_keeps Plugin.triggers rfl]
    by_cases same : other = key
    · rw [if_pos same, same, change_same]
      rfl
    · rw [if_neg same, change_other same]

theorem link_depends : ((daemon.link key trigger).plugin other).depends
    = if trigger = some other then addRef (daemon.plugin other).depends key
      else (daemon.plugin other).depends := by
  unfold Daemon.link
  cases trigger with
  | none =>
    rw [if_neg (by simp)]
    exact change_keeps Plugin.depends rfl other
  | some trigger =>
    by_cases same : other = trigger
    · rw [same, if_pos rfl, change_same]
      exact congrArg (addRef · key) (change_keeps Plugin.depends rfl trigger)
    · rw [if_neg (fun equal => same (Option.some.inj equal).symm), change_other same]
      exact change_keeps Plugin.depends rfl other

theorem link_uses : ((daemon.link key trigger).plugin other).uses
    = if trigger = some other then addRef (daemon.plugin other).uses key
      else (daemon.plugin other).uses := by
  unfold Daemon.link
  cases trigger with
  | none =>
    rw [if_neg (by simp)]
    exact change_keeps Plugin.uses rfl other
  | some trigger =>
    by_cases same : other = trigger
    · rw [same, if_pos rfl, change_same]
      exact congrArg (addRef · key) (change_keeps Plugin.uses rfl trigger)
    · rw [if_neg (fun equal => same (Option.some.inj equal).symm), change_other same]
      exact change_keeps Plugin.uses rfl other

theorem link_unload : ((daemon.link key trigger).plugin other).unload
    = (daemon.plugin other).unload := by
  unfold Daemon.link
  cases trigger with
  | none => exact change_keeps Plugin.unload rfl other
  | some trigger =>
    rw [change_keeps Plugin.unload rfl]
    exact change_keeps Plugin.unload rfl other

theorem link_finalized : ((daemon.link key trigger).plugin other).finalized
    = (daemon.plugin other).finalized := by
  unfold Daemon.link
  cases trigger with
  | none => exact change_keeps Plugin.finalized rfl other
  | some trigger =>
    rw [change_keeps Plugin.finalized rfl]
    exact change_keeps Plugin.finalized rfl other

theorem link_lists : (daemon.link key trigger).pluginList = daemon.pluginList ∧
    (daemon.link key trigger).next = daemon.next ∧ (daemon.link key trigger).stack = daemon.stack ∧
    (daemon.link key trigger).victims = daemon.victims ∧ (daemon.link key trigger).finalizes =
    daemon.finalizes ∧ (daemon.link key trigger).cleanups = daemon.cleanups ∧
    (daemon.link key trigger).broken = daemon.broken := by
  unfold Daemon.link
  cases trigger with
  | none => exact ⟨rfl, rfl, rfl, rfl, rfl, rfl, rfl⟩
  | some trigger => exact ⟨rfl, rfl, rfl, rfl, rfl, rfl, rfl⟩

end Link

theorem Graph.link (graph : Graph daemon none) (listed : key ∈ daemon.pluginList)
    (active : (daemon.plugin key).finalized = false) {trigger : Option Nat}
    (present : ∀ other, trigger = some other → other ∈ daemon.pluginList) :
    Graph (daemon.link key trigger) none := by
  obtain ⟨pluginList, next, -, victims, -⟩ := @link_lists daemon key trigger
  have inside : trigger.getD key ∈ daemon.pluginList := by
    cases trigger with
    | none => exact listed
    | some trigger => exact present trigger rfl
  refine ⟨?_, ?_, ?_, ?_, ?_, ?_, fun left right gap => absurd gap (by simp), ?_, ?_⟩
  · rw [pluginList]
    exact graph.nodup
  · rw [pluginList, next]
    exact graph.recent
  · intro other member
    rw [pluginList] at member ⊢
    rw [link_triggers]
    split
    · obtain ⟨nodup, listed_triggers⟩ := graph.triggers key listed
      refine ⟨addRef_nodup nodup _, fun third is_trigger => ?_⟩
      rcases mem_addRef.mp is_trigger with old | new
      · exact listed_triggers third old
      · rw [new]
        exact inside
    · exact graph.triggers other member
  · intro other member
    rw [pluginList] at member ⊢
    rw [link_depends]
    obtain ⟨nodup, listed_depends⟩ := graph.depends other member
    split
    · refine ⟨addRef_nodup nodup _, fun third is_depend => ?_⟩
      rcases mem_addRef.mp is_depend with old | new
      · exact listed_depends third old
      · rw [new]
        exact listed
    · exact ⟨nodup, listed_depends⟩
  · intro left left_listed right right_listed different is_trigger
    rw [pluginList] at left_listed right_listed
    rw [link_triggers] at is_trigger
    rw [link_depends]
    have old : right ∈ (daemon.plugin left).triggers →
        left ∈ if trigger = some right then
            addRef (daemon.plugin right).depends key
          else (daemon.plugin right).depends := by
      intro was
      have depends := graph.forth left left_listed right right_listed different was
      split
      · exact mem_addRef.mpr (.inl depends)
      · exact depends
    by_cases same : left = key
    · rw [if_pos same] at is_trigger
      rcases mem_addRef.mp is_trigger with was | new
      · exact old (same ▸ was)
      · cases trigger with
        | none => exact absurd (same.trans new.symm) different
        | some trigger =>
          rw [new, Option.getD_some, if_pos rfl]
          exact mem_addRef.mpr (.inr same)
    · rw [if_neg same] at is_trigger
      exact old is_trigger
  · intro left left_listed right right_listed different depends
    rw [pluginList] at left_listed right_listed
    rw [link_depends] at depends
    rw [link_triggers]
    left
    have old : left ∈ (daemon.plugin right).depends →
        right ∈ if left = key then
            addRef (daemon.plugin key).triggers (trigger.getD key)
          else (daemon.plugin left).triggers := by
      intro was
      rcases graph.back left left_listed right right_listed different was with
        is_trigger | gap
      · split
        · next same => exact mem_addRef.mpr (.inl (same ▸ is_trigger))
        · exact is_trigger
      · exact absurd gap (by simp)
    by_cases is_trigger : trigger = some right
    · rw [if_pos is_trigger] at depends
      rcases mem_addRef.mp depends with was | new
      · exact old was
      · rw [if_pos new, is_trigger]
        exact mem_addRef.mpr (.inr rfl)
    · rw [if_neg is_trigger] at depends
      exact old depends
  · intro other member unmarked used is_used
    rw [pluginList] at member
    rw [link_unload] at unmarked
    rw [link_uses] at is_used
    rw [link_depends, victims]
    have old := graph.uses other member unmarked used
    by_cases is_trigger : trigger = some other
    · rw [if_pos is_trigger] at is_used ⊢
      rcases mem_addRef.mp is_used with was | new
      · rcases old was with depends | victim
        · exact .inl (mem_addRef.mpr (.inl depends))
        · exact .inr victim
      · exact .inl (mem_addRef.mpr (.inr new))
    · rw [if_neg is_trigger] at is_used ⊢
      exact old is_used
  · intro other member done_
    rw [pluginList] at member
    rw [link_finalized] at done_
    intro third is_trigger different
    rw [link_triggers] at is_trigger
    rw [link_unload]
    split at is_trigger
    · next same =>
        rw [same, active] at done_
        exact absurd done_ (by simp)
    · exact graph.quiet other member done_ third is_trigger different

theorem Calls.link (calls : Calls daemon) (key : Nat) (trigger : Option Nat) :
    Calls (daemon.link key trigger) := by
  obtain ⟨-, next, -, -, finalizes, cleanups, broken⟩ := @link_lists daemon key trigger
  refine ⟨finalizes.symm ▸ calls.finalizes, fun other member => ?_,
    cleanups.symm ▸ calls.cleanups, fun other member => ?_,
    broken.trans calls.unbroken⟩
  · rw [next, link_finalized]
    exact calls.finalized other (finalizes ▸ member)
  · rw [next, link_unload]
    exact calls.cleaned other (cleanups ▸ member)

theorem Loading.link (loading : Loading daemon) (key : Nat)
    (trigger : Option Nat) : Loading (daemon.link key trigger) := by
  obtain ⟨pluginList, -, stack, -⟩ := @link_lists daemon key trigger
  refine ⟨stack.symm ▸ loading.keys, fun frame member => ?_⟩
  rw [pluginList, link_finalized]
  exact loading.frames frame (stack ▸ member)

/-- A plugin is linked, or created and put on the stack. -/
theorem load_sound {before after : Daemon} (sound : Sound before) {name : String} {minVer : Int}
    {trigger : Option Nat} {file : Option File}
    (present : ∀ other, trigger = some other → other ∈ before.pluginList)
    (loaded : loadPlugin before name minVer trigger file = some after) :
    Sound after := by
  obtain ⟨graph, calls, loading⟩ := sound
  unfold loadPlugin at loaded
  split at loaded
  · exact absurd loaded (by simp)
  split at loaded
  · next key found =>
      split at loaded
      · exact absurd loaded (by simp)
      split at loaded
      · exact absurd loaded (by simp)
      next active =>
        obtain rfl := Option.some.inj loaded
        have listed : key ∈ before.pluginList := by
          unfold findPlugin at found
          split at found
          · exact absurd found (by simp)
          · exact mem_of_find?_eq_some found
        exact ⟨graph.link listed (by simpa using active) present,
          calls.link key trigger, loading.link key trigger⟩
  · split at loaded
    · exact absurd loaded (by simp)
    next accepted version is_accepted =>
      obtain rfl := Option.some.inj loaded
      have new : before.next ∉ before.pluginList := fun member =>
        Nat.lt_irrefl _ (graph.recent _ member)
      generalize is_new : newPlugin name version accepted = plugin
      have triggers : plugin.triggers = [] := by
        rw [← is_new]
        rfl
      have depends : plugin.depends = [] := by
        rw [← is_new]
        rfl
      have uses : plugin.uses = [] := by
        rw [← is_new]
        rfl
      have active : plugin.finalized = false := by
        rw [← is_new]
        rfl
      generalize is_added : (before.change before.next fun _ => plugin) = added
      have at_new : added.plugin before.next = plugin := by
        rw [← is_added]
        exact change_same
      have called : ∀ other < before.next, added.plugin other = before.plugin other := by
        intro other less
        rw [← is_added]
        exact change_other (Nat.ne_of_lt less)
      have old : ∀ other ∈ before.pluginList, added.plugin other = before.plugin other :=
        fun other member => called other (graph.recent other member)
      have lists : added.pluginList = before.pluginList ∧ added.next = before.next ∧ added.stack =
          before.stack ∧ added.victims = before.victims ∧ added.finalizes = before.finalizes ∧
          added.cleanups = before.cleanups ∧ added.broken = before.broken := by
        rw [← is_added]
        exact ⟨rfl, rfl, rfl, rfl, rfl, rfl, rfl⟩
      obtain ⟨-, -, -, victims, finalizes, cleanups, broken⟩ := lists
      refine ⟨⟨?_, ?_, ?_, ?_, ?_, ?_, fun left right gap =>
        absurd gap (by simp), ?_, ?_⟩, ⟨?_, ?_, ?_, ?_, broken.trans calls.unbroken⟩, ⟨?_, ?_⟩⟩
      · exact nodup_cons.mpr ⟨new, graph.nodup⟩
      · intro other member
        rcases mem_cons.mp member with rfl | inside
        · exact Nat.lt_succ_self _
        · exact Nat.lt_succ_of_lt (graph.recent other inside)
      · intro other member
        rcases mem_cons.mp member with rfl | inside
        · dsimp only
          rw [at_new, triggers]
          exact ⟨nodup_nil, fun third is_trigger => absurd is_trigger not_mem_nil⟩
        · dsimp only
          rw [old other inside]
          obtain ⟨nodup, listed⟩ := graph.triggers other inside
          exact ⟨nodup, fun third is_trigger => mem_cons_of_mem _ (listed third is_trigger)⟩
      · intro other member
        rcases mem_cons.mp member with rfl | inside
        · dsimp only
          rw [at_new, depends]
          exact ⟨nodup_nil, fun third is_depend => absurd is_depend not_mem_nil⟩
        · dsimp only
          rw [old other inside]
          obtain ⟨nodup, listed⟩ := graph.depends other inside
          exact ⟨nodup, fun third is_depend => mem_cons_of_mem _ (listed third is_depend)⟩
      · intro left left_listed right right_listed different is_trigger
        dsimp only at is_trigger ⊢
        rcases mem_cons.mp left_listed with rfl | left_old
        · rw [at_new, triggers] at is_trigger
          exact absurd is_trigger not_mem_nil
        · rw [old left left_old] at is_trigger
          rcases mem_cons.mp right_listed with rfl | right_old
          · exact absurd ((graph.triggers left left_old).2 _ is_trigger) new
          · rw [old right right_old]
            exact graph.forth left left_old right right_old different is_trigger
      · intro left left_listed right right_listed different is_depend
        dsimp only at is_depend ⊢
        rcases mem_cons.mp right_listed with rfl | right_old
        · rw [at_new, depends] at is_depend
          exact absurd is_depend not_mem_nil
        · rw [old right right_old] at is_depend
          rcases mem_cons.mp left_listed with rfl | left_old
          · exact absurd ((graph.depends right right_old).2 _ is_depend) new
          · rw [old left left_old]
            exact graph.back left left_old right right_old different is_depend
      · intro other member unmarked used is_used
        dsimp only at unmarked is_used ⊢
        rcases mem_cons.mp member with rfl | inside
        · rw [at_new, uses] at is_used
          exact absurd is_used not_mem_nil
        · rw [old other inside] at unmarked is_used ⊢
          rw [victims]
          exact graph.uses other inside unmarked used is_used
      · intro other member done_
        dsimp only at done_
        rcases mem_cons.mp member with rfl | inside
        · rw [at_new, active] at done_
          exact absurd done_ (by simp)
        · rw [old other inside] at done_
          intro third is_trigger different
          dsimp only at is_trigger ⊢
          rw [old other inside] at is_trigger
          rw [old third ((graph.triggers other inside).2 third is_trigger)]
          exact graph.quiet other inside done_ third is_trigger different
      · exact finalizes.symm ▸ calls.finalizes
      · intro other member
        obtain ⟨less, was⟩ := calls.finalized other (finalizes ▸ member)
        refine ⟨Nat.lt_succ_of_lt less, ?_⟩
        dsimp only
        rw [called other less]
        exact was
      · exact cleanups.symm ▸ calls.cleanups
      · intro other member
        obtain ⟨less, was⟩ := calls.cleaned other (cleanups ▸ member)
        refine ⟨Nat.lt_succ_of_lt less, ?_⟩
        dsimp only
        rw [called other less]
        exact was
      · apply nodup_cons.mpr
        refine ⟨fun member => ?_, loading.keys⟩
        obtain ⟨frame, inside, same⟩ := mem_map.mp member
        have same : frame.key = before.next := same
        exact new (same ▸ (loading.frames frame inside).1)
      · intro frame member
        rcases mem_cons.mp member with rfl | inside
        · refine ⟨mem_cons_self, ?_, fun other is_trigger =>
            mem_cons_of_mem _ (present other is_trigger)⟩
          dsimp only
          rw [at_new]
          exact active
        · obtain ⟨listed, is_active, triggers⟩ := loading.frames frame inside
          refine ⟨mem_cons_of_mem _ listed, ?_, fun other is_trigger =>
            mem_cons_of_mem _ (triggers other is_trigger)⟩
          dsimp only
          rw [old frame.key listed]
          exact is_active

/-- The frames below the one that is done. -/
theorem Loading.pop (loading : Loading daemon)
    (stack : daemon.stack = frame :: rest) :
    (rest.map Frame.key).Nodup ∧ ∀ other ∈ rest, other.key ≠ frame.key ∧ other.key ∈
      daemon.pluginList ∧ (daemon.plugin other.key).finalized = false ∧ ∀ trigger, other.trigger =
      some trigger → trigger ∈ daemon.pluginList := by
  have keys := loading.keys
  rw [stack, map_cons] at keys
  obtain ⟨absent, nodup⟩ := nodup_cons.mp keys
  refine ⟨nodup, fun other member => ⟨fun same => ?_, ?_⟩⟩
  · exact absent (mem_map.mpr ⟨other, member, same⟩)
  · apply loading.frames
    rw [stack]
    exact mem_cons_of_mem _ member

section

variable {callbacks : Callbacks} (flat : callbacks.Flat) (sound : Sound daemon)
  (stack : daemon.stack = frame :: rest)

include flat sound stack

/-- A plugin whose load fails is cleaned up. -/
theorem failLoad_sound (untriggered : Untriggered daemon frame.key) :
    Sound (failLoad callbacks daemon frame rest) := by
  obtain ⟨graph, calls, loading⟩ := sound
  have listed : frame.key ∈ daemon.pluginList := by
    refine (loading.frames frame ?_).1
    rw [stack]
    exact mem_cons_self
  obtain ⟨nodup, below⟩ := loading.pop stack
  unfold failLoad
  rw [flat frame.key]
  generalize is_changed : (daemon.change frame.key fun plugin =>
    { plugin with finalized := true }) = changed
  dsimp only
  generalize is_marked : ({ changed with
    stack := rest, null := !rest.isEmpty } : Daemon) = marked
  have plugin : marked.plugin = changed.plugin := by
    rw [← is_marked]
  have finalized : ∀ other, other ≠ frame.key →
      (marked.plugin other).finalized = (daemon.plugin other).finalized := by
    intro other different
    rw [plugin, ← is_changed, change_other different]
  have now : (marked.plugin frame.key).finalized = true := by
    rw [plugin, ← is_changed, change_same]
  have triggers : ∀ other, (marked.plugin other).triggers = (daemon.plugin other).triggers := by
    rw [plugin, ← is_changed]
    exact change_keeps Plugin.triggers rfl
  have depends : ∀ other, (marked.plugin other).depends = (daemon.plugin other).depends := by
    rw [plugin, ← is_changed]
    exact change_keeps Plugin.depends rfl
  have uses : ∀ other, (marked.plugin other).uses = (daemon.plugin other).uses := by
    rw [plugin, ← is_changed]
    exact change_keeps Plugin.uses rfl
  have unload : ∀ other, (marked.plugin other).unload = (daemon.plugin other).unload := by
    rw [plugin, ← is_changed]
    exact change_keeps Plugin.unload rfl
  have lists : marked.pluginList = daemon.pluginList ∧ marked.next = daemon.next ∧ marked.stack =
      rest ∧ marked.victims = daemon.victims ∧ marked.finalizes = daemon.finalizes ∧ marked.cleanups
      = daemon.cleanups ∧ marked.broken = daemon.broken := by
    rw [← is_marked, ← is_changed]
    exact ⟨rfl, rfl, rfl, rfl, rfl, rfl, rfl⟩
  obtain ⟨pluginList, next, stack_now, victims, finalizes, cleanups, broken⟩ := lists
  have still : ∀ other, Untriggered daemon other → Untriggered marked other := by
    intro other was trigger is_trigger different
    rw [triggers] at is_trigger
    rw [unload]
    exact was trigger is_trigger different
  have graph_marked : Graph marked none := by
    refine ⟨?_, ?_, ?_, ?_, ?_, ?_, fun left right gap => absurd gap (by simp), ?_, ?_⟩
    · rw [pluginList]
      exact graph.nodup
    · rw [pluginList, next]
      exact graph.recent
    · intro other
      rw [pluginList, triggers]
      exact graph.triggers other
    · intro other
      rw [pluginList, depends]
      exact graph.depends other
    · intro left inside right member different
      rw [pluginList] at inside member
      rw [triggers, depends]
      exact graph.forth left inside right member different
    · intro left inside right member different
      rw [pluginList] at inside member
      rw [triggers, depends]
      exact graph.back left inside right member different
    · intro other member unmarked used is_used
      rw [pluginList] at member
      rw [unload] at unmarked
      rw [uses] at is_used
      rw [depends, victims]
      exact graph.uses other member unmarked used is_used
    · intro other member done_
      rw [pluginList] at member
      by_cases same : other = frame.key
      · rw [same]
        exact still _ untriggered
      · rw [finalized other same] at done_
        exact still _ (graph.quiet other member done_)
  have calls_marked : Calls marked := by
    refine ⟨finalizes.symm ▸ calls.finalizes, fun other member => ?_,
      cleanups.symm ▸ calls.cleanups, fun other member => ?_,
      broken.trans calls.unbroken⟩
    · obtain ⟨less, was⟩ := calls.finalized other (finalizes ▸ member)
      rw [next]
      refine ⟨less, ?_⟩
      by_cases same : other = frame.key
      · rw [same]
        exact now
      · rw [finalized other same]
        exact was
    · rw [next, unload]
      exact calls.cleaned other (cleanups ▸ member)
  have inside : frame.key ∈ marked.pluginList := by
    rw [pluginList]
    exact listed
  obtain ⟨going, finalized_after⟩ := going_cleanup graph_marked calls_marked
    inside (still _ untriggered)
  refine ⟨going.graph, going.calls, ?_, ?_⟩
  · rw [going.same.stack, stack_now]
    exact nodup
  · intro other member
    rw [going.same.stack, stack_now] at member
    obtain ⟨different, other_listed, active, present⟩ := below other member
    rw [going.same.pluginList, pluginList, finalized_after, finalized other.key different]
    exact ⟨other_listed, active, present⟩

theorem initPlugin_sound (success : Bool)
    (untriggered : (daemon.plugin frame.key).init = true → success = false →
      Untriggered daemon frame.key) :
    Sound (initPlugin callbacks daemon frame rest success) := by
  unfold initPlugin
  split
  · next fails =>
      simp only [and_eq_true, not_eq_true'] at fails
      exact failLoad_sound flat sound stack (untriggered fails.1 fails.2)
  · obtain ⟨graph, calls, loading⟩ := sound
    have member : frame ∈ daemon.stack := by
      rw [stack]
      exact mem_cons_self
    obtain ⟨listed, active, present⟩ := loading.frames frame member
    obtain ⟨nodup, below⟩ := loading.pop stack
    have next := next_change graph calls frame.key
      (fun plugin => { plugin with initialized := true }) (fun _ => rfl)
      (fun _ => rfl) (fun _ => rfl) (fun _ => rfl) (fun _ => rfl)
    have finalized : ∀ other, ((daemon.change frame.key fun plugin =>
        { plugin with initialized := true }).plugin other).finalized
          = (daemon.plugin other).finalized :=
      change_keeps Plugin.finalized rfl
    generalize (daemon.change frame.key fun plugin =>
      { plugin with initialized := true }) = marked at next finalized
    have graph_linked := next.graph.link (next.pluginList ▸ listed)
      ((finalized frame.key).trans active) fun other is_trigger =>
        next.pluginList ▸ present other is_trigger
    have calls_linked := next.calls.link frame.key frame.trigger
    obtain ⟨pluginList, -⟩ := @link_lists marked frame.key frame.trigger
    refine ⟨⟨graph_linked.nodup, graph_linked.recent, graph_linked.triggers,
      graph_linked.depends, graph_linked.forth, graph_linked.back,
      graph_linked.closing, graph_linked.uses, graph_linked.quiet⟩,
      ⟨calls_linked.finalizes, calls_linked.finalized, calls_linked.cleanups,
        calls_linked.cleaned, calls_linked.unbroken⟩, nodup, ?_⟩
    intro other inside
    obtain ⟨-, other_listed, other_active, other_present⟩ := below other inside
    show other.key ∈ (marked.link frame.key frame.trigger).pluginList
      ∧ ((marked.link frame.key frame.trigger).plugin other.key).finalized = false
      ∧ ∀ trigger, other.trigger = some trigger →
        trigger ∈ (marked.link frame.key frame.trigger).pluginList
    rw [pluginList, next.pluginList, link_finalized, finalized]
    exact ⟨other_listed, other_active, other_present⟩

end

/-! ## Runs -/

theorem sound_start (timeout : Nat) : Sound (Daemon.start timeout) := by
  refine ⟨⟨nodup_nil, ?_, ?_, ?_, ?_, ?_, fun left right gap =>
    absurd gap (by simp), ?_, ?_⟩, ⟨nodup_nil, ?_, nodup_nil, ?_, rfl⟩,
    Loading.idle rfl⟩
  all_goals exact fun key member => absurd member not_mem_nil

theorem findPlugin_listed {name : String}
    (found : findPlugin daemon name = some key) : key ∈ daemon.pluginList := by
  unfold findPlugin at found
  split at found
  · exact absurd found (by simp)
  · exact mem_of_find?_eq_some found

theorem sound_dependency (sound : Sound daemon) (file : Option File) :
    Sound (perform daemon (.dependency file)) := by
  unfold perform
  dsimp only
  split
  · next key trigger name version deps rest stack =>
      have frame : ⟨key, trigger, (name, version) :: deps⟩ ∈ daemon.stack := by
        rw [stack]
        exact mem_cons_self
      have loading : (Frame.key ⟨key, trigger, deps⟩ :: rest.map Frame.key).Nodup
          ∧ ∀ other ∈ (⟨key, trigger, deps⟩ :: rest : List Frame),
            other.key ∈ daemon.pluginList ∧ (daemon.plugin other.key).finalized = false ∧ ∀ above,
              other.trigger = some above → above ∈ daemon.pluginList := by
        refine ⟨?_, fun other member => ?_⟩
        · have keys := sound.loading.keys
          rw [stack] at keys
          exact keys
        · rcases mem_cons.mp member with rfl | inside
          · have known := sound.loading.frames ⟨key, trigger, (name, version) :: deps⟩ frame
            exact known
          · apply sound.loading.frames
            rw [stack]
            exact mem_cons_of_mem _ inside
      have going : ∀ null, Sound { daemon with
          stack := ⟨key, trigger, deps⟩ :: rest, null } := fun null =>
        ⟨⟨sound.graph.nodup, sound.graph.recent, sound.graph.triggers,
          sound.graph.depends, sound.graph.forth, sound.graph.back,
          sound.graph.closing, sound.graph.uses, sound.graph.quiet⟩,
          ⟨sound.calls.finalizes, sound.calls.finalized, sound.calls.cleanups,
            sound.calls.cleaned, sound.calls.unbroken⟩,
          ⟨loading.1, loading.2⟩⟩
      cases loaded : loadPlugin { daemon with
          stack := ⟨key, trigger, deps⟩ :: rest } name version (some key) file with
      | none => exact going true
      | some after =>
        refine load_sound (going daemon.null) (fun other is_key => ?_) loaded
        rw [← Option.some.inj is_key]
        exact (sound.loading.frames _ frame).1
  · exact sound

theorem sound_step (sound : Sound daemon) {event : Event}
    (enabled : Enabled daemon event) (fits : Fits daemon event) :
    Sound (perform daemon event) := by
  obtain ⟨graph, calls, loading⟩ := sound
  cases event with
  | load name minVer trigger file =>
    show Sound ((loadPlugin daemon name minVer trigger file).getD daemon)
    cases loaded : loadPlugin daemon name minVer trigger file with
    | none => exact ⟨graph, calls, loading⟩
    | some after => exact load_sound ⟨graph, calls, loading⟩ enabled.2 loaded
  | dependency file => exact sound_dependency ⟨graph, calls, loading⟩ file
  | abort callbacks =>
    obtain ⟨flat, untriggered⟩ := fits
    unfold perform
    dsimp only
    split
    · next frame rest stack =>
        exact failLoad_sound flat ⟨graph, calls, loading⟩ stack (untriggered frame rest stack)
    · exact ⟨graph, calls, loading⟩
  | init success callbacks =>
    obtain ⟨flat, untriggered⟩ := fits
    unfold perform
    dsimp only
    split
    · next frame rest stack =>
        exact initPlugin_sound flat ⟨graph, calls, loading⟩ stack success
          (untriggered frame rest stack)
    · exact ⟨graph, calls, loading⟩
  | finalize name callbacks =>
    unfold perform
    dsimp only
    split
    · next key found =>
        exact (next_remTrigger_self fits graph calls (findPlugin_listed found)).sound enabled
    · exact ⟨graph, calls, loading⟩
  | unload name callbacks =>
    obtain ⟨flat, safe⟩ := fits
    unfold perform
    dsimp only
    split
    · next key found =>
        exact (going_unload flat graph calls (findPlugin_listed found)
          (safe key found)).next.sound enabled
    · exact ⟨graph, calls, loading⟩
  | force name depth rounds callbacks =>
    unfold perform
    dsimp only
    split
    · next key found =>
        exact (next_force fits graph calls (findPlugin_listed found) depth rounds).sound enabled
    · exact ⟨graph, calls, loading⟩
  | handle callbacks =>
    obtain ⟨graph_after, calls_after, stack⟩ := handle_run fits graph.nodup
      graph calls fun key member => member
    exact ⟨graph_after, calls_after, Loading.idle (stack.trans enabled)⟩
  | tick time =>
    exact ⟨⟨graph.nodup, graph.recent, graph.triggers, graph.depends,
      graph.forth, graph.back, graph.closing, graph.uses, graph.quiet⟩,
      ⟨calls.finalizes, calls.finalized, calls.cleanups, calls.cleaned,
        calls.unbroken⟩, ⟨loading.keys, loading.frames⟩⟩

theorem Sound.honoured (sound : Sound daemon) : Honoured daemon where
  mirror := by
    intro left inside right member different
    constructor
    · exact sound.graph.forth left inside right member different
    · intro depends
      rcases sound.graph.back left inside right member different depends with
        trigger | gap
      · exact trigger
      · exact absurd gap (by simp)
  triggers := fun key member => (sound.graph.triggers key member).2
  depends := fun key member => (sound.graph.depends key member).2
  finalizes := sound.calls.finalizes
  cleanups := sound.calls.cleanups
  unbroken := sound.calls.unbroken

/-- Dependencies are honoured while no `cleanup()` unloads its plugin and no
plugin is unloaded, or fails to load, that others still need. -/
theorem plugins_honoured {daemon : Daemon}
    (reachable : fittingSystem.Reachable daemon) : Honoured daemon := by
  have invariant : fittingSystem.Invariant Sound :=
    { initial := by
        rintro daemon ⟨timeout, rfl⟩
        exact sound_start timeout
      step := by
        rintro before after sound ⟨event, enabled, fits, rfl⟩
        exact sound_step sound enabled fits }
  exact (invariant.reachable reachable).honoured

/-- A plugin file with all functions. -/
def sampleFile (name dependency : String) : File :=
  { requiredAPI := none, name := some name, version := some 1
    deps := [(dependency, 0)], init := true, finalize := true
    cleanup := true }

theorem plugins_honoured_load :
    Honoured (perform (.start 4) (.load "left" 0 none (some (sampleFile "left" "right")))) := by
  refine plugins_honoured (.step (.initial ⟨4, rfl⟩)
    ⟨.load "left" 0 none (some (sampleFile "left" "right")), ⟨rfl, ?_⟩,
      trivial, rfl⟩)
  exact fun key none_ => absurd none_ (by simp)

/-! ## A load fails in a cycle -/

/-- Functions that do not call the daemon. -/
def silent : Callbacks := { unloads := fun _ => false, nested := fun _ => 0 }

/-- Two plugins depend on each other, the second one is initialized. -/
def halfLoaded : Daemon :=
  perform
    (perform
      (perform
        (perform (.start 4) (.load "left" 0 none (some (sampleFile "left" "right"))))
        (.dependency (some (sampleFile "right" "left"))))
      (.dependency none))
    (.init true silent)

theorem halfLoaded_reachable : pluginSystem.Reachable halfLoaded := by
  refine .step (.step (.step (.step (.initial ⟨4, rfl⟩)
    ⟨.load "left" 0 none (some (sampleFile "left" "right")), ⟨rfl, ?_⟩, rfl⟩)
    ⟨.dependency (some (sampleFile "right" "left")), ⟨rfl, _, _, rfl, ?_⟩,
      rfl⟩)
    ⟨.dependency none, ⟨rfl, _, _, rfl, ?_⟩, rfl⟩)
    ⟨.init true silent, ⟨rfl, _, _, rfl, rfl⟩, rfl⟩
  · exact fun key none_ => absurd none_ (by simp)
  · exact cons_ne_nil _ _
  · exact cons_ne_nil _ _

/-- The first plugin is cleaned up although the second one needs it. -/
theorem not_plugins_honoured : ¬∀ daemon, pluginSystem.Reachable daemon → Honoured daemon := by
  intro all
  have failed : pluginSystem.Reachable (perform halfLoaded (.init false silent)) :=
    .step halfLoaded_reachable ⟨.init false silent, ⟨rfl, ⟨0, none, []⟩, [], by rfl, rfl⟩, rfl⟩
  have unbroken := (all _ failed).unbroken
  have broken : (perform halfLoaded (.init false silent)).broken = [(0, 1)] := by
    decide +kernel
  rw [broken] at unbroken
  exact absurd unbroken (by simp)

end Psmgmt.Plugins
