import Psmgmt.Library.Snoc
import Psmgmt.Plugins.Dependencies

/-!
# The graph of plugins

A plugin that is finalized has no triggers but those marked for unload, and a
plugin that uses another one is among its triggers as long as neither it is cleaned
up nor the other one was cut off as a victim.
-/

namespace Psmgmt.Plugins

open List

/-! ## Changes of a plugin -/

section Change

variable {daemon : Daemon} {key : Nat} {change : Plugin → Plugin}

@[simp] theorem change_same : (daemon.change key change).plugin key = change (daemon.plugin key) :=
  if_pos rfl

@[simp] theorem change_other {other : Nat} (different : other ≠ key) :
    (daemon.change key change).plugin other = daemon.plugin other :=
  if_neg different

theorem change_keeps {Value : Type} (read : Plugin → Value)
    (keeps : read (change (daemon.plugin key)) = read (daemon.plugin key)) (other : Nat) :
    read ((daemon.change key change).plugin other) = read (daemon.plugin other) := by
  by_cases same : other = key
  · rw [same, change_same]
    exact keeps
  · rw [change_other same]

end Change

variable {key : Nat} {before after daemon : Daemon} {gap : Option (Nat × Nat)}

theorem mem_addRef {refs : List Nat} {other : Nat} :
    other ∈ addRef refs key ↔ other ∈ refs ∨ other = key := by
  unfold addRef
  split
  · next member =>
      refine ⟨.inl, ?_⟩
      rintro (inside | rfl)
      · exact inside
      · exact member
  · rw [mem_append, mem_singleton]

theorem addRef_nodup {refs : List Nat} (nodup : refs.Nodup) (key : Nat) :
    (addRef refs key).Nodup := by
  unfold addRef
  split
  · exact nodup
  · next absent => exact Snoc.nodup nodup absent

/-! ## The graph of plugins -/

/-- What holds of triggers and dependencies.  In a gap the right plugin is being
closed, and it was taken off the triggers of the left one before its list is
changed. -/
structure Graph (daemon : Daemon) (gap : Option (Nat × Nat)) : Prop where
  nodup : daemon.pluginList.Nodup
  recent : ∀ key ∈ daemon.pluginList, key < daemon.next
  triggers : ∀ key ∈ daemon.pluginList, (daemon.plugin key).triggers.Nodup
    ∧ ∀ trigger ∈ (daemon.plugin key).triggers, trigger ∈ daemon.pluginList
  depends : ∀ key ∈ daemon.pluginList, (daemon.plugin key).depends.Nodup
    ∧ ∀ depend ∈ (daemon.plugin key).depends, depend ∈ daemon.pluginList
  forth : ∀ left ∈ daemon.pluginList, ∀ right ∈ daemon.pluginList,
    left ≠ right → right ∈ (daemon.plugin left).triggers →
      left ∈ (daemon.plugin right).depends
  back : ∀ left ∈ daemon.pluginList, ∀ right ∈ daemon.pluginList,
    left ≠ right → left ∈ (daemon.plugin right).depends →
      right ∈ (daemon.plugin left).triggers ∨ gap = some (left, right)
  closing : ∀ left right, gap = some (left, right) → (daemon.plugin right).unload = true
  uses : ∀ key ∈ daemon.pluginList, (daemon.plugin key).unload = false →
    ∀ used ∈ (daemon.plugin key).uses, used ∈ (daemon.plugin key).depends ∨ used ∈ daemon.victims
  quiet : ∀ key ∈ daemon.pluginList, (daemon.plugin key).finalized = true → Untriggered daemon key

/-- Functions of plugins are called once, and nothing was broken. -/
structure Calls (daemon : Daemon) : Prop where
  finalizes : daemon.finalizes.Nodup
  finalized : ∀ key ∈ daemon.finalizes, key < daemon.next ∧ (daemon.plugin key).finalized = true
  cleanups : daemon.cleanups.Nodup
  cleaned : ∀ key ∈ daemon.cleanups, key < daemon.next ∧ (daemon.plugin key).unload = true
  unbroken : daemon.broken = []

/-- Loads that are going on. -/
structure Loading (daemon : Daemon) : Prop where
  keys : (daemon.stack.map Frame.key).Nodup
  frames : ∀ frame ∈ daemon.stack, frame.key ∈ daemon.pluginList
    ∧ (daemon.plugin frame.key).finalized = false
    ∧ ∀ trigger, frame.trigger = some trigger → trigger ∈ daemon.pluginList

/-- Only flags differ, and no mark for unload was taken back. -/
structure Same (before after : Daemon) : Prop where
  pluginList : after.pluginList = before.pluginList
  next : after.next = before.next
  stack : after.stack = before.stack
  victims : after.victims = before.victims
  triggers : ∀ key, (after.plugin key).triggers = (before.plugin key).triggers
  depends : ∀ key, (after.plugin key).depends = (before.plugin key).depends
  uses : ∀ key, (after.plugin key).uses = (before.plugin key).uses
  unload : ∀ key, (before.plugin key).unload = true → (after.plugin key).unload = true

theorem Same.refl (daemon : Daemon) : Same daemon daemon :=
  ⟨rfl, rfl, rfl, rfl, fun _ => rfl, fun _ => rfl, fun _ => rfl, fun _ => id⟩

theorem Same.trans {first second third : Daemon} (left : Same first second)
    (right : Same second third) : Same first third where
  pluginList := right.pluginList.trans left.pluginList
  next := right.next.trans left.next
  stack := right.stack.trans left.stack
  victims := right.victims.trans left.victims
  triggers := fun key => (right.triggers key).trans (left.triggers key)
  depends := fun key => (right.depends key).trans (left.depends key)
  uses := fun key => (right.uses key).trans (left.uses key)
  unload := fun key marked => right.unload key (left.unload key marked)

theorem Same.untriggered (same : Same before after)
    (untriggered : Untriggered before key) : Untriggered after key := by
  intro trigger member different
  rw [same.triggers] at member
  exact same.unload trigger (untriggered trigger member different)

theorem Graph.same (graph : Graph before gap) (same : Same before after)
    (quiet : ∀ key ∈ before.pluginList, (after.plugin key).finalized = true →
      Untriggered after key) : Graph after gap := by
  obtain ⟨pluginList, next, stack, victims, triggers, depends, uses, unload⟩ := same
  refine ⟨?_, ?_, ?_, ?_, ?_, ?_, ?_, ?_, ?_⟩
  · rw [pluginList]
    exact graph.nodup
  · rw [pluginList, next]
    exact graph.recent
  · intro key
    rw [pluginList, triggers]
    exact graph.triggers key
  · intro key
    rw [pluginList, depends]
    exact graph.depends key
  · intro left inside right member different
    rw [pluginList] at inside member
    rw [triggers, depends]
    exact graph.forth left inside right member different
  · intro left inside right member different
    rw [pluginList] at inside member
    rw [triggers, depends]
    exact graph.back left inside right member different
  · intro left right is_gap
    exact unload right (graph.closing left right is_gap)
  · intro key member unmarked used inside
    rw [pluginList] at member
    rw [uses] at inside
    rw [depends, victims]
    refine graph.uses key member ?_ used inside
    by_contra marked
    have still := unload key (by simpa using marked)
    rw [unmarked] at still
    exact absurd still (by simp)
  · rw [pluginList]
    exact quiet

section

variable (graph : Graph daemon gap) (member : key ∈ daemon.pluginList)
  (untriggered : Untriggered daemon key)

include graph member untriggered

/-- A plugin without triggers that are not marked for unload is not used. -/
theorem Graph.unused (no_victim : key ∉ daemon.victims) : dependants daemon key = [] := by
  apply filter_eq_nil_iff.mpr
  intro other inside needs
  simp only [Bool.and_eq_true, decide_eq_true_eq, Bool.not_eq_true'] at needs
  obtain ⟨⟨⟨different, used⟩, -⟩, unmarked⟩ := needs
  have marked : (daemon.plugin other).unload = true := by
    rcases graph.uses other inside unmarked key used with depends | victim
    · rcases graph.back key member other inside (Ne.symm different) depends with trigger | gap
      · exact untriggered other trigger different
      · exact graph.closing key other gap
    · exact absurd victim no_victim
  rw [unmarked] at marked
  exact absurd marked (by simp)

theorem Graph.unbroken : (daemon.noteBroken key).broken = daemon.broken := by
  show (if key ∈ daemon.victims then daemon.broken else daemon.broken ++
    (dependants daemon key).map fun other => (key, other)) = daemon.broken
  split
  · rfl
  · next no_victim =>
      rw [graph.unused member untriggered no_victim]
      exact append_nil _

end

/-! ## Finalize and unload -/

/-- What a function that changes flags keeps. -/
structure Going (gap : Option (Nat × Nat)) (before after : Daemon) : Prop where
  same : Same before after
  graph : Graph after gap
  calls : Calls after

/-- Changes of data that no rule is about. -/
theorem going_change (graph : Graph daemon gap) (calls : Calls daemon) (key : Nat)
    (change : Plugin → Plugin) (triggers : ∀ plugin, (change plugin).triggers = plugin.triggers)
    (depends : ∀ plugin, (change plugin).depends = plugin.depends)
    (uses : ∀ plugin, (change plugin).uses = plugin.uses)
    (unload : ∀ plugin, (change plugin).unload = plugin.unload)
    (finalized : ∀ plugin, (change plugin).finalized = plugin.finalized) :
    Going gap daemon (daemon.change key change) := by
  have same : Same daemon (daemon.change key change) := by
    refine ⟨rfl, rfl, rfl, rfl, change_keeps Plugin.triggers (triggers _),
      change_keeps Plugin.depends (depends _),
      change_keeps Plugin.uses (uses _), fun other marked => ?_⟩
    rw [change_keeps Plugin.unload (unload _)]
    exact marked
  have is_finalized : ∀ other, ((daemon.change key change).plugin
      other).finalized = (daemon.plugin other).finalized :=
    change_keeps Plugin.finalized (finalized (daemon.plugin key))
  refine ⟨same, graph.same same ?_, calls.finalizes, ?_, calls.cleanups, ?_, calls.unbroken⟩
  · intro other member done_
    rw [is_finalized] at done_
    exact same.untriggered (graph.quiet other member done_)
  · intro other member
    rw [is_finalized]
    exact calls.finalized other member
  · intro other member
    exact ⟨(calls.cleaned other member).1, same.unload other (calls.cleaned other member).2⟩

/-- A plugin that is not triggered any more is cleaned up. -/
theorem going_cleanup (graph : Graph daemon gap) (calls : Calls daemon)
    (member : key ∈ daemon.pluginList) (untriggered : Untriggered daemon key) :
    Going gap daemon (cleanupPlugin daemon key 0)
      ∧ ∀ other, ((cleanupPlugin daemon key 0).plugin other).finalized
        = (daemon.plugin other).finalized := by
  unfold cleanupPlugin
  by_cases marked : (daemon.plugin key).unload = true
  · rw [if_pos marked]
    exact ⟨⟨Same.refl daemon, graph, calls⟩, fun _ => rfl⟩
  · rw [if_neg marked]
    have unmarked : (daemon.plugin key).unload = false := by simpa using marked
    have noted := graph.unbroken member untriggered
    have new : key ∉ daemon.cleanups := by
      intro called
      exact marked (calls.cleaned key called).2
    generalize is_cleaned : (if (daemon.plugin key).cleanup = true then
      daemon.callCleanup key else daemon) = cleaned
    have plugin : cleaned.plugin = daemon.plugin := by
      rw [← is_cleaned]
      split <;> rfl
    have same : Same daemon (cleaned.change key fun plugin =>
        { plugin with unload := true }) := by
      refine ⟨?_, ?_, ?_, ?_, fun other => ?_, fun other => ?_,
        fun other => ?_, fun other was => ?_⟩
      · rw [← is_cleaned]
        split <;> rfl
      · rw [← is_cleaned]
        split <;> rfl
      · rw [← is_cleaned]
        split <;> rfl
      · rw [← is_cleaned]
        split <;> rfl
      · rw [change_keeps Plugin.triggers rfl, plugin]
      · rw [change_keeps Plugin.depends rfl, plugin]
      · rw [change_keeps Plugin.uses rfl, plugin]
      · by_cases equal : other = key
        · rw [equal, change_same]
        · rw [change_other equal, plugin]
          exact was
    have finalized : ∀ other, ((cleaned.change key fun plugin =>
        { plugin with unload := true }).plugin other).finalized
          = (daemon.plugin other).finalized := by
      intro other
      rw [change_keeps Plugin.finalized rfl, plugin]
    have cleanups : cleaned.cleanups = daemon.cleanups
        ∨ cleaned.cleanups = daemon.cleanups ++ [key] := by
      rw [← is_cleaned]
      split
      · exact .inr rfl
      · exact .inl rfl
    have broken : cleaned.broken = [] := by
      rw [← is_cleaned]
      split
      · exact noted.trans calls.unbroken
      · exact calls.unbroken
    have finalizes : cleaned.finalizes = daemon.finalizes := by
      rw [← is_cleaned]
      split <;> rfl
    refine ⟨⟨same, graph.same same ?_, ?_, ?_, ?_, ?_, broken⟩, finalized⟩
    · intro other inside done_
      rw [finalized] at done_
      exact same.untriggered (graph.quiet other inside done_)
    · exact finalizes.symm ▸ calls.finalizes
    · intro other called
      rw [same.next, finalized]
      exact calls.finalized other (finalizes ▸ called)
    · show cleaned.cleanups.Nodup
      rcases cleanups with old | now
      · rw [old]
        exact calls.cleanups
      · rw [now]
        exact Snoc.nodup calls.cleanups new
    · intro other called
      have called : other ∈ cleaned.cleanups := called
      rw [same.next]
      have old : other ∈ daemon.cleanups → other < daemon.next
          ∧ ((cleaned.change key fun plugin =>
            { plugin with unload := true }).plugin other).unload = true :=
        fun inside => ⟨(calls.cleaned other inside).1,
          same.unload other (calls.cleaned other inside).2⟩
      rcases cleanups with before | now
      · rw [before] at called
        exact old called
      · rw [now] at called
        rcases mem_append.mp called with inside | last
        · exact old inside
        · rw [mem_singleton.mp last, change_same]
          exact ⟨graph.recent key member, rfl⟩

section Flat

variable {callbacks : Callbacks} (flat : callbacks.Flat) {daemon : Daemon}
  {gap : Option (Nat × Nat)}

include flat

theorem going_finalize (graph : Graph daemon gap) (calls : Calls daemon)
    (member : key ∈ daemon.pluginList) :
    Going gap daemon (finalizePlugin callbacks daemon key) := by
  unfold finalizePlugin
  by_cases was : (daemon.plugin key).finalized = true
  · rw [if_pos was]
    exact ⟨Same.refl daemon, graph, calls⟩
  rw [if_neg was]
  by_cases triggered : (daemon.plugin key).triggers = []
  case neg =>
    rw [if_pos triggered]
    exact ⟨Same.refl daemon, graph, calls⟩
  rw [if_neg (by simpa using triggered), flat key]
  generalize is_marked : (daemon.change key fun plugin =>
    { plugin with finalized := true }) = marked
  have same : Same daemon marked := by
    rw [← is_marked]
    refine ⟨rfl, rfl, rfl, rfl, change_keeps Plugin.triggers rfl,
      change_keeps Plugin.depends rfl, change_keeps Plugin.uses rfl,
      fun other unload => ?_⟩
    rw [change_keeps Plugin.unload rfl]
    exact unload
  have untriggered : Untriggered marked key := by
    intro trigger inside
    rw [same.triggers, triggered] at inside
    exact absurd inside not_mem_nil
  have graph_marked : Graph marked gap := by
    apply graph.same same
    intro other inside now
    by_cases equal : other = key
    · rw [equal]
      exact untriggered
    · rw [← is_marked, change_other equal] at now
      exact same.untriggered (graph.quiet other inside now)
  have still : ∀ other, (daemon.plugin other).finalized = true →
      (marked.plugin other).finalized = true := by
    intro other is_finalized
    rw [← is_marked]
    by_cases equal : other = key
    · rw [equal, change_same]
    · rw [change_other equal]
      exact is_finalized
  have lists : marked.finalizes = daemon.finalizes ∧ marked.cleanups = daemon.cleanups ∧
      marked.broken = daemon.broken := by
    rw [← is_marked]
    exact ⟨rfl, rfl, rfl⟩
  have calls_marked : Calls marked := by
    refine ⟨lists.1 ▸ calls.finalizes, fun other called => ?_,
      lists.2.1 ▸ calls.cleanups, fun other called => ?_,
      lists.2.2 ▸ calls.unbroken⟩
    · rw [lists.1] at called
      rw [same.next]
      exact ⟨(calls.finalized other called).1, still other (calls.finalized other called).2⟩
    · rw [lists.2.1] at called
      rw [same.next]
      exact ⟨(calls.cleaned other called).1, same.unload other (calls.cleaned other called).2⟩
  have inside : key ∈ marked.pluginList := by
    rw [same.pluginList]
    exact member
  by_cases no_function : (daemon.plugin key).finalize = false
  · rw [if_pos no_function]
    have cleaned := (going_cleanup graph_marked calls_marked inside untriggered).1
    exact ⟨same.trans cleaned.same, cleaned.graph, cleaned.calls⟩
  rw [if_neg no_function]
  have new : key ∉ marked.finalizes := by
    rw [lists.1]
    intro called
    exact was (calls.finalized key called).2
  generalize is_called : ({ marked with
    finalizes := marked.finalizes ++ [key] } : Daemon) = called
  have same_called : Same marked called := by
    rw [← is_called]
    exact ⟨rfl, rfl, rfl, rfl, fun _ => rfl, fun _ => rfl, fun _ => rfl,
      fun _ => id⟩
  have graph_called : Graph called gap := by
    apply graph_marked.same same_called
    intro other member done_
    rw [← is_called] at done_
    exact same_called.untriggered (graph_marked.quiet other member done_)
  have calls_called : Calls called := by
    rw [← is_called]
    refine ⟨?_, fun other was_called => ?_, calls_marked.cleanups,
      calls_marked.cleaned, calls_marked.unbroken⟩
    · exact Snoc.nodup calls_marked.finalizes new
    · rcases mem_append.mp was_called with before | last
      · exact calls_marked.finalized other before
      · rw [mem_singleton.mp last]
        refine ⟨graph_marked.recent key inside, ?_⟩
        show (marked.plugin key).finalized = true
        rw [← is_marked, change_same]
  have inside_called : key ∈ called.pluginList := by
    rw [same_called.pluginList]
    exact inside
  dsimp only
  generalize is_returned : (if callbacks.unloads key = true then
    cleanupPlugin called key 0 else called) = returned
  have going : Going gap called returned := by
    rw [← is_returned]
    split
    · exact (going_cleanup graph_called calls_called inside_called
        (same_called.untriggered untriggered)).1
    · exact ⟨Same.refl called, graph_called, calls_called⟩
  have all := (same.trans same_called).trans going.same
  split
  · have graced := going_change going.graph going.calls key
      (fun plugin => { plugin with
        grace := some (daemon.now + daemon.unloadTimeout) })
      (fun _ => rfl) (fun _ => rfl) (fun _ => rfl) (fun _ => rfl)
      (fun _ => rfl)
    exact ⟨all.trans graced.same, graced.graph, graced.calls⟩
  · exact ⟨all, going.graph, going.calls⟩

theorem going_unload (graph : Graph daemon gap) (calls : Calls daemon)
    (member : key ∈ daemon.pluginList)
    (fits : (daemon.plugin key).finalized = true
      ∨ (daemon.plugin key).unload = true ∨ Untriggered daemon key) :
    Going gap daemon (unloadPlugin callbacks daemon key) := by
  unfold unloadPlugin
  rw [flat key]
  generalize is_finalized : (if (daemon.plugin key).finalized = true then daemon
    else finalizePlugin callbacks daemon key) = finalized
  have going : Going gap daemon finalized := by
    rw [← is_finalized]
    split
    · exact ⟨Same.refl daemon, graph, calls⟩
    · exact going_finalize flat graph calls member
  have inside : key ∈ finalized.pluginList := by
    rw [going.same.pluginList]
    exact member
  by_cases marked : (finalized.plugin key).unload = true
  · unfold cleanupPlugin
    rw [if_pos marked]
    exact going
  · have untriggered : Untriggered daemon key := by
      rcases fits with done_ | unload | untriggered
      · exact graph.quiet key member done_
      · exact absurd (going.same.unload key unload) marked
      · exact untriggered
    have cleaned := (going_cleanup going.graph going.calls inside
      (going.same.untriggered untriggered)).1
    exact ⟨going.same.trans cleaned.same, cleaned.graph, cleaned.calls⟩

end Flat

/-! ## References are removed -/

/-- References were removed and nothing else was done. -/
structure Cut (before after : Daemon) : Prop where
  pluginList : after.pluginList = before.pluginList
  next : after.next = before.next
  stack : after.stack = before.stack
  victims : after.victims = before.victims
  finalizes : after.finalizes = before.finalizes
  cleanups : after.cleanups = before.cleanups
  broken : after.broken = before.broken
  triggers : ∀ key, (after.plugin key).triggers.Sublist (before.plugin key).triggers
  depends : ∀ key, (after.plugin key).depends.Sublist (before.plugin key).depends
  uses : ∀ key, (after.plugin key).uses = (before.plugin key).uses
  unload : ∀ key, (after.plugin key).unload = (before.plugin key).unload
  finalized : ∀ key, (after.plugin key).finalized = (before.plugin key).finalized

theorem Cut.trans {first second third : Daemon} (left : Cut first second)
    (right : Cut second third) : Cut first third where
  pluginList := right.pluginList.trans left.pluginList
  next := right.next.trans left.next
  stack := right.stack.trans left.stack
  victims := right.victims.trans left.victims
  finalizes := right.finalizes.trans left.finalizes
  cleanups := right.cleanups.trans left.cleanups
  broken := right.broken.trans left.broken
  triggers := fun key => (right.triggers key).trans (left.triggers key)
  depends := fun key => (right.depends key).trans (left.depends key)
  uses := fun key => (right.uses key).trans (left.uses key)
  unload := fun key => (right.unload key).trans (left.unload key)
  finalized := fun key => (right.finalized key).trans (left.finalized key)

/-- A trigger is taken off the list of a plugin. -/
def Daemon.eraseTrigger (daemon : Daemon) (key trigger : Nat) : Daemon :=
  daemon.change key fun plugin => { plugin with triggers := plugin.triggers.erase trigger }

theorem cut_eraseTrigger (daemon : Daemon) (key trigger : Nat) :
    Cut daemon (daemon.eraseTrigger key trigger) := by
  refine ⟨rfl, rfl, rfl, rfl, rfl, rfl, rfl, fun other => ?_, fun other => ?_,
    change_keeps Plugin.uses rfl, change_keeps Plugin.unload rfl,
    change_keeps Plugin.finalized rfl⟩
  · unfold Daemon.eraseTrigger
    by_cases same : other = key
    · rw [same, change_same]
      exact erase_sublist
    · rw [change_other same]
  · unfold Daemon.eraseTrigger
    rw [change_keeps Plugin.depends rfl]

theorem cut_remDepend (daemon : Daemon) (key depend : Nat) :
    Cut daemon (remDepend daemon key depend) := by
  refine ⟨rfl, rfl, rfl, rfl, rfl, rfl, rfl, fun other => ?_, fun other => ?_,
    change_keeps Plugin.uses rfl, change_keeps Plugin.unload rfl,
    change_keeps Plugin.finalized rfl⟩
  · unfold remDepend
    rw [change_keeps Plugin.triggers rfl]
  · unfold remDepend
    by_cases same : other = key
    · rw [same, change_same]
      exact erase_sublist
    · rw [change_other same]

theorem Calls.cut (calls : Calls before) (cut : Cut before after) : Calls after where
  finalizes := cut.finalizes.symm ▸ calls.finalizes
  finalized := by
    intro key member
    rw [cut.next, cut.finalized]
    exact calls.finalized key (cut.finalizes ▸ member)
  cleanups := cut.cleanups.symm ▸ calls.cleanups
  cleaned := by
    intro key member
    rw [cut.next, cut.unload]
    exact calls.cleaned key (cut.cleanups ▸ member)
  unbroken := cut.broken.trans calls.unbroken

/-- The graph keeps its rules if references are removed on both sides. -/
theorem Graph.cut {now : Option (Nat × Nat)} (graph : Graph before gap)
    (cut : Cut before after)
    (forth : ∀ left ∈ before.pluginList, ∀ right ∈ before.pluginList,
      left ≠ right → right ∈ (after.plugin left).triggers →
        left ∈ (after.plugin right).depends)
    (back : ∀ left ∈ before.pluginList, ∀ right ∈ before.pluginList,
      left ≠ right → left ∈ (after.plugin right).depends →
        right ∈ (after.plugin left).triggers ∨ now = some (left, right))
    (closing : ∀ left right, now = some (left, right) → (before.plugin right).unload = true)
    (uses : ∀ key ∈ before.pluginList, (before.plugin key).unload = false →
      ∀ used ∈ (before.plugin key).depends,
        used ∈ (after.plugin key).depends ∨ used ∈ before.victims) :
    Graph after now := by
  refine ⟨?_, ?_, ?_, ?_, ?_, ?_, ?_, ?_, ?_⟩
  · rw [cut.pluginList]
    exact graph.nodup
  · rw [cut.pluginList, cut.next]
    exact graph.recent
  · intro key member
    rw [cut.pluginList] at member ⊢
    obtain ⟨nodup, inside⟩ := graph.triggers key member
    exact ⟨nodup.sublist (cut.triggers key), fun trigger is_trigger =>
      inside trigger ((cut.triggers key).subset is_trigger)⟩
  · intro key member
    rw [cut.pluginList] at member ⊢
    obtain ⟨nodup, inside⟩ := graph.depends key member
    exact ⟨nodup.sublist (cut.depends key), fun depend is_depend =>
      inside depend ((cut.depends key).subset is_depend)⟩
  · rw [cut.pluginList]
    exact forth
  · rw [cut.pluginList]
    exact back
  · intro left right is_gap
    rw [cut.unload]
    exact closing left right is_gap
  · intro key member unmarked used is_used
    rw [cut.pluginList] at member
    rw [cut.unload] at unmarked
    rw [cut.uses] at is_used
    rw [cut.victims]
    rcases graph.uses key member unmarked used is_used with depends | victim
    · exact uses key member unmarked used depends
    · exact .inr victim
  · intro key member done_
    rw [cut.pluginList] at member
    rw [cut.finalized] at done_
    intro trigger is_trigger different
    rw [cut.unload]
    exact graph.quiet key member done_ trigger ((cut.triggers key).subset is_trigger) different

section Erase

variable {daemon : Daemon} {key other : Nat}

theorem eraseTrigger_depends (third : Nat) :
    ((daemon.eraseTrigger key other).plugin third).depends = (daemon.plugin third).depends :=
  change_keeps Plugin.depends rfl third

theorem remDepend_triggers (third : Nat) :
    ((remDepend daemon key other).plugin third).triggers = (daemon.plugin third).triggers :=
  change_keeps Plugin.triggers rfl third

/-- Only the trigger itself is taken off. -/
theorem mem_eraseTrigger {left right : Nat} (member : right ∈ (daemon.plugin left).triggers)
    (elsewhere : left ≠ key ∨ right ≠ other) :
    right ∈ ((daemon.eraseTrigger key other).plugin left).triggers := by
  unfold Daemon.eraseTrigger
  by_cases same : left = key
  · rw [same, change_same]
    apply (mem_erase_of_ne _).mpr (same ▸ member)
    rcases elsewhere with different | different
    · exact absurd same different
    · exact different
  · rw [change_other same]
    exact member

theorem mem_remDepend {left right : Nat} (member : left ∈ (daemon.plugin right).depends)
    (elsewhere : left ≠ other ∨ right ≠ key) :
    left ∈ ((remDepend daemon key other).plugin right).depends := by
  unfold remDepend
  by_cases same : right = key
  · rw [same, change_same]
    apply (mem_erase_of_ne _).mpr (same ▸ member)
    rcases elsewhere with different | different
    · exact different
    · exact absurd same different
  · rw [change_other same]
    exact member

theorem not_mem_eraseTrigger
    (nodup : (daemon.plugin key).triggers.Nodup) :
    other ∉ ((daemon.eraseTrigger key other).plugin key).triggers := by
  unfold Daemon.eraseTrigger
  rw [change_same]
  exact nodup.not_mem_erase

theorem not_mem_remDepend (nodup : (daemon.plugin key).depends.Nodup) :
    other ∉ ((remDepend daemon key other).plugin key).depends := by
  unfold remDepend
  rw [change_same]
  exact nodup.not_mem_erase

end Erase

/-- A plugin does not trigger itself any more. -/
theorem Graph.eraseSelf (graph : Graph daemon none) (key : Nat) :
    Graph (daemon.eraseTrigger key key) none := by
  have cut := cut_eraseTrigger daemon key key
  apply graph.cut cut
  · intro left inside right member different trigger
    rw [eraseTrigger_depends]
    exact graph.forth left inside right member different ((cut.triggers left).subset trigger)
  · intro left inside right member different depends
    rw [eraseTrigger_depends] at depends
    rcases graph.back left inside right member different depends with
      trigger | gap
    · refine .inl (mem_eraseTrigger trigger ?_)
      by_cases same : left = key
      · exact .inr fun equal => different (same.trans equal.symm)
      · exact .inl same
    · exact .inr gap
  · exact fun left right gap => absurd gap (by simp)
  · intro other member unmarked used depends
    rw [eraseTrigger_depends]
    exact .inl depends

/-- A plugin that is closed is taken off the triggers of another one. -/
theorem Graph.openGap (graph : Graph daemon none) {depend : Nat}
    (marked : (daemon.plugin key).unload = true) :
    Graph (daemon.eraseTrigger depend key) (some (depend, key)) := by
  have cut := cut_eraseTrigger daemon depend key
  apply graph.cut cut
  · intro left inside right member different trigger
    rw [eraseTrigger_depends]
    exact graph.forth left inside right member different ((cut.triggers left).subset trigger)
  · intro left inside right member different depends
    rw [eraseTrigger_depends] at depends
    rcases graph.back left inside right member different depends with
      trigger | gap
    · by_cases same : left = depend ∧ right = key
      · exact .inr (by rw [same.1, same.2])
      · refine .inl (mem_eraseTrigger trigger ?_)
        by_cases equal : left = depend
        · exact .inr fun is_key => same ⟨equal, is_key⟩
        · exact .inl equal
    · exact absurd gap (by simp)
  · intro left right gap
    obtain ⟨rfl, rfl⟩ : depend = left ∧ key = right := by simpa using gap
    exact marked
  · intro other member unmarked used depends
    rw [eraseTrigger_depends]
    exact .inl depends

theorem Graph.closeGap {depend : Nat} (graph : Graph daemon (some (depend, key)))
    (listed : key ∈ daemon.pluginList) (gone : key ∉ (daemon.plugin depend).triggers) :
    Graph (remDepend daemon key depend) none := by
  have cut := cut_remDepend daemon key depend
  have marked := graph.closing depend key rfl
  apply graph.cut cut
  · intro left inside right member different trigger
    rw [remDepend_triggers] at trigger
    refine mem_remDepend (graph.forth left inside right member different trigger) ?_
    by_cases same : left = depend
    · refine .inr fun equal => ?_
      rw [same, equal] at trigger
      exact gone trigger
    · exact .inl same
  · intro left inside right member different depends
    have was := (cut.depends right).subset depends
    rcases graph.back left inside right member different was with
      trigger | gap
    · rw [remDepend_triggers]
      exact .inl trigger
    · obtain ⟨rfl, rfl⟩ : depend = left ∧ key = right := by simpa using gap
      exact absurd depends (not_mem_remDepend (graph.depends key listed).1)
  · exact fun left right gap => absurd gap (by simp)
  · intro other member unmarked used depends
    refine .inl (mem_remDepend depends (.inr fun same => ?_))
    rw [same, marked] at unmarked
    exact absurd unmarked (by simp)

theorem Graph.forgetSelf (graph : Graph daemon none)
    (marked : (daemon.plugin key).unload = true) :
    Graph (remDepend daemon key key) none := by
  have cut := cut_remDepend daemon key key
  apply graph.cut cut
  · intro left inside right member different trigger
    rw [remDepend_triggers] at trigger
    refine mem_remDepend (graph.forth left inside right member different trigger) ?_
    by_cases same : left = key
    · exact .inr fun equal => different (same.trans equal.symm)
    · exact .inl same
  · intro left inside right member different depends
    rw [remDepend_triggers]
    exact graph.back left inside right member different ((cut.depends right).subset depends)
  · exact fun left right gap => absurd gap (by simp)
  · intro other member unmarked used depends
    refine .inl (mem_remDepend depends (.inr fun same => ?_))
    rw [same, marked] at unmarked
    exact absurd unmarked (by simp)

theorem Graph.cutVictim (graph : Graph daemon none) {victim trigger : Nat}
    (noted : victim ∈ daemon.victims) (listed : victim ∈ daemon.pluginList)
    (present : trigger ∈ daemon.pluginList) :
    Graph ((remDepend daemon trigger victim).eraseTrigger victim trigger)
      none := by
  have first := cut_remDepend daemon trigger victim
  have second := cut_eraseTrigger (remDepend daemon trigger victim) victim trigger
  apply graph.cut (first.trans second)
  · intro left inside right member different is_trigger
    rw [eraseTrigger_depends]
    have was := (second.triggers left).subset is_trigger
    rw [remDepend_triggers] at was
    refine mem_remDepend (graph.forth left inside right member different was) ?_
    by_cases same : left = victim
    · refine .inr fun equal => ?_
      rw [same, equal] at is_trigger
      refine not_mem_eraseTrigger ?_ is_trigger
      rw [remDepend_triggers]
      exact (graph.triggers victim listed).1
    · exact .inl same
  · intro left inside right member different depends
    rw [eraseTrigger_depends] at depends
    have was := (first.depends right).subset depends
    rcases graph.back left inside right member different was with
      is_trigger | gap
    · rw [← @remDepend_triggers daemon trigger victim] at is_trigger
      refine .inl (mem_eraseTrigger is_trigger ?_)
      by_cases same : left = victim
      · refine .inr fun equal => ?_
        rw [same, equal] at depends
        exact not_mem_remDepend (graph.depends trigger present).1 depends
      · exact .inl same
    · exact absurd gap (by simp)
  · exact fun left right gap => absurd gap (by simp)
  · intro other member unmarked used depends
    rw [eraseTrigger_depends]
    by_cases same : used = victim
    · exact .inr (same ▸ noted)
    · exact .inl (mem_remDepend depends (.inl same))

end Psmgmt.Plugins
