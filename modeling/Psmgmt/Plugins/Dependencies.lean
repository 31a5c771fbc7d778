import Psmgmt.Library.Transition

/-!
# Plugins of the daemon

A plugin lists the plugins it depends on and is listed by them as a trigger.  It
is finalized when its last trigger is gone, then cleaned up and marked for unload,
and closed in the daemon's main loop.
-/

namespace Psmgmt.Plugins

def pluginAPIVersion : Nat := 148

/-- `struct PSIDplugin`.  `initialized` tells that its initialization succeeded,
`uses` which plugins were loaded for it. -/
structure Plugin where
  name : String
  version : Int
  triggers : List Nat
  depends : List Nat
  init : Bool
  finalize : Bool
  cleanup : Bool
  distance : Nat
  cleared : Bool
  finalized : Bool
  unload : Bool
  grace : Option Nat
  initialized : Bool
  uses : List Nat

/-- What `dlopen()` finds. -/
structure File where
  requiredAPI : Option Nat
  name : Option String
  version : Option Int
  deps : List (String × Int)
  init : Bool
  finalize : Bool
  cleanup : Bool

/-- A call of `PSIDplugin_load()` that loads dependencies. -/
structure Frame where
  key : Nat
  trigger : Option Nat
  deps : List (String × Int)

/-- What functions of plugins do: whether `finalize()` calls
`PSIDplugin_unload()` for its plugin, and how often `cleanup()` does so before
it goes on. -/
structure Callbacks where
  unloads : Nat → Bool
  nested : Nat → Nat

/-- The daemon, with plugins by their addresses.  `null` tells that the load of a
dependency returned `NULL`.  Besides: calls of `finalize()` and `cleanup()`,
victims, and which plugins still needed one that was cleaned up or closed. -/
structure Daemon where
  pluginList : List Nat
  plugin : Nat → Plugin
  next : Nat
  now : Nat
  unloadTimeout : Nat
  stack : List Frame
  null : Bool
  depLoopDetect : Bool
  finalizes : List Nat
  cleanups : List Nat
  victims : List Nat
  broken : List (Nat × Nat)

/-- `newPlugin()` -/
def newPlugin (name : String) (version : Int) (file : File) : Plugin :=
  { name, version, triggers := [], depends := []
    init := file.init, finalize := file.finalize
    cleanup := file.cleanup, distance := 0, cleared := false
    finalized := false, unload := false, grace := none
    initialized := false, uses := [] }

def Daemon.start (unloadTimeout : Nat) : Daemon :=
  { pluginList := [], next := 0, now := 0, unloadTimeout, stack := []
    null := false, depLoopDetect := false, finalizes := [], cleanups := []
    victims := [], broken := []
    plugin := fun _ => newPlugin "" 0
      { requiredAPI := none, name := none, version := none, deps := []
        init := false, finalize := false, cleanup := false } }

def Daemon.change (daemon : Daemon) (key : Nat) (change : Plugin → Plugin) :
    Daemon :=
  { daemon with
    plugin := fun other => if other = key then change (daemon.plugin key) else daemon.plugin other }

/-- `PSIDplugin_find()` -/
def findPlugin (daemon : Daemon) (name : String) : Option Nat :=
  if name = "" then none
  else daemon.pluginList.find? fun key => (daemon.plugin key).name = name

/-- `addRef()` -/
def addRef (refList : List Nat) (key : Nat) : List Nat :=
  if key ∈ refList then refList else refList ++ [key]

/-! ## Finalize and unload -/

def dependants (daemon : Daemon) (key : Nat) : List Nat :=
  daemon.pluginList.filter fun other =>
    other ≠ key && key ∈ (daemon.plugin other).uses
      && (daemon.plugin other).initialized && !(daemon.plugin other).unload

/-- Note plugins that still need this one, unless it is a victim. -/
def Daemon.noteBroken (daemon : Daemon) (key : Nat) : Daemon :=
  { daemon with
    broken := if key ∈ daemon.victims then daemon.broken
      else daemon.broken ++ (dependants daemon key).map fun other => (key, other) }

def Daemon.callCleanup (daemon : Daemon) (key : Nat) : Daemon :=
  let noted := daemon.noteBroken key
  { noted with cleanups := noted.cleanups ++ [key] }

/-- The end of `unloadPlugin()`.  A plugin that gets here is finalized or still
triggered, so there is nothing to finalize if `cleanup()` gets here again. -/
def cleanupPlugin (daemon : Daemon) (key : Nat) (nested : Nat) : Daemon :=
  if (daemon.plugin key).unload then daemon
  else
    let cleaned :=
      if (daemon.plugin key).cleanup then
        let called := daemon.callCleanup key
        match nested with
        | 0 => called
        | again + 1 => cleanupPlugin called key again
      else daemon
    cleaned.change key fun plugin => { plugin with unload := true }

section Callbacks

variable (callbacks : Callbacks)

/-- `finalizePlugin()` -/
def finalizePlugin (daemon : Daemon) (key : Nat) : Daemon :=
  if (daemon.plugin key).finalized then daemon
  else if (daemon.plugin key).triggers ≠ [] then daemon
  else
    let marked := daemon.change key fun plugin => { plugin with finalized := true }
    if (daemon.plugin key).finalize = false then
      cleanupPlugin marked key (callbacks.nested key)
    else
      let called := { marked with finalizes := marked.finalizes ++ [key] }
      let returned :=
        if callbacks.unloads key then
          cleanupPlugin called key (callbacks.nested key)
        else called
      if (returned.plugin key).grace.isSome && !(returned.plugin key).unload then
        returned.change key fun plugin =>
          { plugin with grace := some (daemon.now + daemon.unloadTimeout) }
      else returned

def unloadPlugin (daemon : Daemon) (key : Nat) : Daemon :=
  let finalized :=
    if (daemon.plugin key).finalized then daemon
    else finalizePlugin callbacks daemon key
  cleanupPlugin finalized key (callbacks.nested key)

/-- `remTrigger()` -/
def remTrigger (daemon : Daemon) (key trigger : Nat) : Daemon :=
  if trigger ∈ (daemon.plugin key).triggers then
    let removed := daemon.change key fun plugin =>
      { plugin with triggers := plugin.triggers.erase trigger }
    if (removed.plugin key).triggers = [] then
      finalizePlugin callbacks removed key
    else removed
  else daemon

/-- `remDepend()` -/
def remDepend (daemon : Daemon) (key depend : Nat) : Daemon :=
  daemon.change key fun plugin => { plugin with depends := plugin.depends.erase depend }

/-- `dlclose()` and `delPlugin()` -/
def Daemon.close (daemon : Daemon) (key : Nat) : Daemon :=
  let noted := daemon.noteBroken key
  { noted with pluginList := noted.pluginList.erase key }

def doUnload (daemon : Daemon) (key : Nat) : Daemon :=
  if (daemon.plugin key).unload = false then daemon
  else if (daemon.plugin key).triggers ≠ [] then daemon
  else
    let released := (daemon.plugin key).depends.foldl (fun daemon depend =>
      remDepend (remTrigger callbacks daemon depend key) key depend) daemon
    released.close key

/-! ## Load -/

/-- The tests of a file before its plugin is created. -/
def acceptFile (minVer : Int) (file : Option File) : Option (File × Int) :=
  match file with
  | none => none
  | some file =>
    if file.requiredAPI.any fun api => pluginAPIVersion < api then none
    else if file.name.getD "" = "" then none
    else
      match file.version with
      | none => none
      | some version =>
        if minVer ≠ 0 ∧ version < minVer then none
        else some (file, version)

def Daemon.link (daemon : Daemon) (key : Nat) (trigger : Option Nat) : Daemon :=
  match trigger with
  | none => daemon.change key fun plugin => { plugin with triggers := addRef plugin.triggers key }
  | some trigger =>
    (daemon.change key fun plugin =>
      { plugin with triggers := addRef plugin.triggers trigger }).change
        trigger fun plugin =>
          { plugin with
            depends := addRef plugin.depends key
            uses := addRef plugin.uses key }

/-- `PSIDplugin_load()` up to the dependencies; `none` is `NULL`. -/
def loadPlugin (daemon : Daemon) (name : String) (minVer : Int)
    (trigger : Option Nat) (file : Option File) : Option Daemon :=
  if name = "" then none
  else
    match findPlugin daemon name with
    | some key =>
      if (daemon.plugin key).version < minVer then none
      else if (daemon.plugin key).finalized then none
      else some (daemon.link key trigger)
    | none =>
      match acceptFile minVer file with
      | none => none
      | some (file, version) =>
        some { daemon.change daemon.next fun _ =>
            newPlugin name version file with
          pluginList := daemon.next :: daemon.pluginList
          next := daemon.next + 1
          stack := ⟨daemon.next, trigger, file.deps⟩ :: daemon.stack }

def failLoad (daemon : Daemon) (frame : Frame) (rest : List Frame) : Daemon :=
  let marked := { daemon.change frame.key fun plugin =>
      { plugin with finalized := true } with
    stack := rest
    null := !rest.isEmpty }
  cleanupPlugin marked frame.key (callbacks.nested frame.key)

/-- All dependencies are loaded. -/
def initPlugin (daemon : Daemon) (frame : Frame) (rest : List Frame) (success : Bool) : Daemon :=
  if (daemon.plugin frame.key).init && !success then
    failLoad callbacks daemon frame rest
  else
    { (daemon.change frame.key fun plugin =>
        { plugin with initialized := true }).link frame.key frame.trigger with
      stack := rest }

/-! ## Forced unload -/

/-- `walkDepGraph()`; the depth is that of the recursion. -/
def walkDepGraph (daemon : Daemon) (key distance : Nat) (depth : Nat) :
    Daemon :=
  match depth with
  | 0 => daemon
  | deeper + 1 =>
    if (daemon.plugin key).unload then
      daemon.change key fun plugin => { plugin with cleared := true }
    else if (daemon.plugin key).cleared then daemon
    else if (daemon.plugin key).distance ≠ 0 ∧ (daemon.plugin key).distance < distance then daemon
    else if (daemon.plugin key).finalized then
      daemon.change key fun plugin =>
        { plugin with
          distance
          grace := if plugin.grace.isSome then plugin.grace
            else some (daemon.now + daemon.unloadTimeout)
          cleared := true }
    else
      let graced := daemon.change key fun plugin =>
        { plugin with distance, grace := some daemon.now }
      let removed := remTrigger callbacks graced key key
      if (removed.plugin key).triggers = [] then
        removed.change key fun plugin => { plugin with cleared := true }
      else
        let walked := (removed.plugin key).triggers.foldl
          (fun state trigger =>
            if (state.1.plugin trigger).unload then state
            else
              let after := walkDepGraph state.1 trigger (distance + 1) deeper
              (after, state.2 && (after.plugin trigger).cleared))
          (removed, true)
        let cleared := walked.1.change key fun plugin => { plugin with cleared := walked.2 }
        if walked.2 then cleared else { cleared with depLoopDetect := true }

/-- `findMaxDistPlugin()` -/
def findMaxDistPlugin (daemon : Daemon) : Option Nat :=
  daemon.pluginList.foldl (fun maxDist key =>
    if (daemon.plugin key).distance ≠ 0 && !(daemon.plugin key).cleared
        && maxDist.all fun most => (daemon.plugin most).distance < (daemon.plugin key).distance then
      some key
    else maxDist) none

def kickVictim (daemon : Daemon) (victim : Nat) : Daemon :=
  let noted := { daemon with victims := daemon.victims ++ [victim] }
  let cut := (noted.plugin victim).triggers.foldl (fun daemon trigger =>
    remTrigger callbacks (remDepend daemon trigger victim) victim trigger) noted
  cut.change victim fun plugin => { plugin with cleared := true }

/-- `forceUnloadPlugin()`, with as many rounds. -/
def forceUnload (daemon : Daemon) (key depth : Nat) (rounds : Nat) : Daemon :=
  match rounds with
  | 0 => daemon
  | again + 1 =>
    let walked := walkDepGraph callbacks { daemon with depLoopDetect := false } key 1 depth
    if walked.depLoopDetect then
      match findMaxDistPlugin walked with
      | none => walked
      | some victim => forceUnload (kickVictim callbacks walked victim) key depth again
    else walked

/-! ## The main loop -/

/-- What `handlePlugins()` does to a plugin. -/
def handlePlugin (daemon : Daemon) (key : Nat) : Daemon :=
  let timed :=
    if (daemon.plugin key).finalized && !(daemon.plugin key).unload
        && (daemon.plugin key).grace.any fun grace => grace < daemon.now then
      unloadPlugin callbacks daemon key
    else daemon
  if (timed.plugin key).unload then doUnload callbacks timed key else timed

def handlePlugins (daemon : Daemon) : Daemon :=
  daemon.pluginList.foldl (handlePlugin callbacks) daemon

end Callbacks

/-! ## Runs of the daemon -/

inductive Event where
  | load (name : String) (minVer : Int) (trigger : Option Nat) (file : Option File)
  /-- The next dependency is loaded; the file is what is there. -/
  | dependency (file : Option File)
  /-- A dependency could not be loaded. -/
  | abort (callbacks : Callbacks)
  | init (success : Bool) (callbacks : Callbacks)
  | finalize (name : String) (callbacks : Callbacks)
  | unload (name : String) (callbacks : Callbacks)
  | force (name : String) (depth rounds : Nat) (callbacks : Callbacks)
  | handle (callbacks : Callbacks)
  | tick (time : Nat)

/-- No load is going on, or its next step is this one. -/
def Enabled (daemon : Daemon) : Event → Prop
  | .load _ _ trigger _ => daemon.stack = [] ∧ ∀ key, trigger = some key → key ∈ daemon.pluginList
  | .dependency _ => daemon.null = false
      ∧ ∃ frame rest, daemon.stack = frame :: rest ∧ frame.deps ≠ []
  | .abort _ => daemon.null = true ∧ daemon.stack ≠ []
  | .init _ _ => daemon.null = false ∧ ∃ frame rest, daemon.stack = frame :: rest ∧ frame.deps = []
  | _ => daemon.stack = []

def perform (daemon : Daemon) : Event → Daemon
  | .load name minVer trigger file => (loadPlugin daemon name minVer trigger file).getD daemon
  | .dependency file =>
    match daemon.stack with
    | ⟨key, trigger, (name, version) :: deps⟩ :: rest =>
      let going := { daemon with stack := ⟨key, trigger, deps⟩ :: rest }
      (loadPlugin going name version (some key) file).getD { going with null := true }
    | _ => daemon
  | .abort callbacks =>
    match daemon.stack with
    | frame :: rest => failLoad callbacks daemon frame rest
    | [] => daemon
  | .init success callbacks =>
    match daemon.stack with
    | frame :: rest => initPlugin callbacks daemon frame rest success
    | [] => daemon
  | .finalize name callbacks =>
    match findPlugin daemon name with
    | some key => remTrigger callbacks daemon key key
    | none => daemon
  | .unload name callbacks =>
    match findPlugin daemon name with
    | some key => unloadPlugin callbacks daemon key
    | none => daemon
  | .force name depth rounds callbacks =>
    match findPlugin daemon name with
    | some key => forceUnload callbacks daemon key depth rounds
    | none => daemon
  | .handle callbacks => handlePlugins callbacks daemon
  | .tick time => { daemon with now := daemon.now + time }

def pluginSystem : TransitionSystem Daemon where
  initial := fun daemon => ∃ timeout, daemon = Daemon.start timeout
  step := fun before after => ∃ event, Enabled before event ∧ after = perform before event

/-! ## Dependencies honoured -/

/-- Triggers and dependencies mirror each other, no list refers to a plugin that
was released, functions of plugins are called once, and no plugin is cleaned up or
closed while others need it. -/
structure Honoured (daemon : Daemon) : Prop where
  mirror : ∀ left ∈ daemon.pluginList, ∀ right ∈ daemon.pluginList,
    left ≠ right → (right ∈ (daemon.plugin left).triggers ↔ left ∈ (daemon.plugin right).depends)
  triggers : ∀ key ∈ daemon.pluginList,
    ∀ trigger ∈ (daemon.plugin key).triggers, trigger ∈ daemon.pluginList
  depends : ∀ key ∈ daemon.pluginList,
    ∀ depend ∈ (daemon.plugin key).depends, depend ∈ daemon.pluginList
  finalizes : daemon.finalizes.Nodup
  cleanups : daemon.cleanups.Nodup
  unbroken : daemon.broken = []

def Untriggered (daemon : Daemon) (key : Nat) : Prop :=
  ∀ trigger ∈ (daemon.plugin key).triggers, trigger ≠ key → (daemon.plugin trigger).unload = true

/-- No `cleanup()` calls `PSIDplugin_unload()`. -/
def Callbacks.Flat (callbacks : Callbacks) : Prop := ∀ key, callbacks.nested key = 0

/-- `PSIDplugin_unload()` is for plugins that were finalized or are not triggered,
and so are plugins whose load fails. -/
def Fits (daemon : Daemon) : Event → Prop
  | .abort callbacks => callbacks.Flat
      ∧ ∀ frame rest, daemon.stack = frame :: rest → Untriggered daemon frame.key
  | .init success callbacks => callbacks.Flat ∧ ∀ frame rest, daemon.stack = frame :: rest →
        (daemon.plugin frame.key).init = true → success = false → Untriggered daemon frame.key
  | .unload name callbacks => callbacks.Flat ∧ ∀ key, findPlugin daemon name = some key →
        (daemon.plugin key).finalized = true
          ∨ (daemon.plugin key).unload = true ∨ Untriggered daemon key
  | .finalize _ callbacks => callbacks.Flat
  | .force _ _ _ callbacks => callbacks.Flat
  | .handle callbacks => callbacks.Flat
  | _ => True

/-- The runs all of whose events fit. -/
def fittingSystem : TransitionSystem Daemon where
  initial := pluginSystem.initial
  step := fun before after =>
    ∃ event, Enabled before event ∧ Fits before event ∧ after = perform before event

end Psmgmt.Plugins
