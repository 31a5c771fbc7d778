import Psmgmt.Slurm.Broadcast

/-!
# Authorisation of broadcast blocks

A block that is unpacked names job 0 until its credential is extracted, and no
length of a signature is ever kept.  Later blocks are therefore looked up under
job 0 and not compared at all.
-/

namespace Psmgmt.Broadcast

open Serial ByteMemory List Option

variable {setup : Setup} {daemon : Daemon} {site : Site} {request : Request}
  {bcast written : BCast} {cred : BCastCred} {data rest : DataBuffer}

def Ensures {Value : Type} (unpack : Unpack Value) (property : Value → Prop) :
    Prop :=
  ∀ data result, unpack data = some result → property result.1

theorem ensures_bind {First Second : Type} {first : Unpack First} {next : First → Unpack Second}
    {property : Second → Prop} (ensures : ∀ value, Ensures (next value) property) :
    Ensures (first >>= next) property := by
  intro data result unpacked
  simp only [bind, StateT.bind] at unpacked
  cases fetch : first data with
  | none =>
    rw [fetch] at unpacked
    exact absurd unpacked (by simp)
  | some pair =>
    rw [fetch] at unpacked
    exact ensures pair.1 pair.2 result unpacked

theorem ensures_pure {Value : Type} {value : Value} {property : Value → Prop}
    (holds : property value) : Ensures (pure value) property := by
  intro data result unpacked
  have same : (value, data) = result := Option.some.inj unpacked
  rw [← same]
  exact holds

theorem ensures_failure {Value : Type} {property : Value → Prop} :
    Ensures (failure : Unpack Value) property := by
  intro data result unpacked
  exact absurd unpacked (by simp [failure, StateT.failure])

/-- What a block has before its credential is extracted. -/
def Fresh (bcast : BCast) : Prop := bcast.hID = HeadID.zero ∧ bcast.sigLen = 0

variable {version : Nat} {time : Int} {known : List BCast}

theorem unpackReqFileBcast_fresh {flags : Flags}
    (unpacked : unpackReqFileBcast flags version data = some (bcast, rest)) :
    Fresh bcast := by
  have ensures : Ensures (unpackReqFileBcast flags version) Fresh := by
    unfold unpackReqFileBcast
    iterate 16 refine ensures_bind fun _ => ?_
    split
    · exact ensures_failure
    · exact ensures_pure ⟨rfl, rfl⟩
  exact ensures data _ unpacked

/-! ## The list of known blocks -/

/-- No length of a signature is known, and all blocks were passed on. -/
def Kept (daemon : Daemon) : Prop :=
  ∀ first ∈ daemon.bcastList, first.sigLen = 0
    ∧ ∃ executed ∈ daemon.executed, { executed with fwdata := first.fwdata } = first

theorem Kept.fewer {bcastList : List BCast} (kept : Kept daemon)
    (fewer : bcastList ⊆ daemon.bcastList) :
    Kept { daemon with bcastList } :=
  fun first member => kept first (fewer member)

theorem Kept.ended (kept : Kept daemon) (index : Nat) :
    Kept { daemon with
      bcastList := daemon.bcastList.modify index fun bcast => { bcast with fwdata := false } } := by
  intro first member
  obtain ⟨place, inside, is_first⟩ := mem_iff_getElem.mp member
  rw [getElem_modify] at is_first
  rw [length_modify] at inside
  obtain ⟨length, executed, passed_on, same⟩ := kept _ (getElem_mem inside)
  split at is_first
  · refine ⟨by rw [← is_first]; exact length, executed, passed_on, ?_⟩
    rw [← is_first, ← same]
  · rw [← is_first]
    exact ⟨length, executed, passed_on, same⟩

theorem clearByJobid_subset (jobid : Nat) (bcastList : List BCast) :
    clearByJobid jobid bcastList ⊆ bcastList :=
  filter_sublist.subset

theorem Kept.callback (kept : Kept daemon) (index : Nat) :
    Kept { daemon with
      bcastList := bcastCallback index daemon.bcastList } := by
  unfold bcastCallback
  cases daemon.bcastList[index]? with
  | none => exact kept
  | some bcast =>
    by_cases last : bcast.flags.testBit 1 = true
    · simp only [if_pos last]
      exact (kept.ended index).fewer (clearByJobid_subset _ _)
    · simp only [if_neg last]
      exact kept.ended index

/-! ## What is passed on -/

theorem extractCred_ok
    (extracted : extractCred setup time known version data bcast = .ok written) :
    ∃ cred rest, unpackBCastCred setup.flags version data = some (cred, rest)
      ∧ written = withCred bcast cred
      ∧ (if bcast.blockNumber = 1 then checkFirst setup data cred
        else checkLater time (known ++ [bcast]) bcast cred) = .ok () := by
  unfold extractCred at extracted
  cases unpacked : unpackBCastCred setup.flags version data with
  | none =>
    rw [unpacked] at extracted
    exact absurd extracted (by simp)
  | some pair =>
    rw [unpacked] at extracted
    simp only at extracted
    split at extracted
    · exact absurd extracted (by simp)
    · rename_i checked
      exact ⟨pair.1, pair.2, rfl, (Except.ok.inj extracted).symm, checked⟩

theorem assignOwner_sigLen {uid : Nat}
    (assigned : assignOwner setup site uid bcast = .ok written) :
    written.sigLen = bcast.sigLen := by
  unfold assignOwner at assigned
  split at assigned
  · exact absurd assigned (by simp)
  · split at assigned
    · exact absurd assigned (by simp)
    · split at assigned
      · exact absurd assigned (by simp)
      · split at assigned
        · exact absurd assigned (by simp)
        · rw [← Except.ok.inj assigned]

theorem passed_ok (passed_on : passed setup site known request = .ok written) :
    ∃ bcast data extracted,
      unpackReqFileBcast setup.flags request.version request.data = some (bcast, data)
        ∧ extractCred setup site.time known request.version data bcast = .ok extracted
        ∧ assignOwner setup site request.uid extracted = .ok written := by
  unfold passed at passed_on
  cases unpacked : unpackReqFileBcast setup.flags request.version request.data with
  | none =>
    rw [unpacked] at passed_on
    exact absurd passed_on (by simp)
  | some pair =>
    rw [unpacked] at passed_on
    simp only [handleFileBCast] at passed_on
    split at passed_on
    · exact absurd passed_on (by simp)
    · rename_i extracted is_extracted
      exact ⟨pair.1, pair.2, extracted, rfl, is_extracted, passed_on⟩

theorem passed_sigLen
    (passed_on : passed setup site known request = .ok written) :
    written.sigLen = 0 := by
  obtain ⟨bcast, data, extracted, unpacked, is_extracted, assigned⟩ := passed_ok passed_on
  obtain ⟨cred, -, -, rfl, -⟩ := extractCred_ok is_extracted
  rw [assignOwner_sigLen assigned]
  exact (unpackReqFileBcast_fresh unpacked).2

theorem Kept.handle (kept : Kept daemon) (event : Event) : Kept (handle setup daemon event) := by
  cases event with
  | request site request =>
    simp only [Broadcast.handle, serve]
    cases passed_on : passed setup site daemon.bcastList request with
    | error code => exact kept
    | ok written =>
      have old : ∀ first ∈ daemon.bcastList, first.sigLen = 0
          ∧ ∃ executed ∈ daemon.executed ++ [written],
            { executed with fwdata := first.fwdata } = first := by
        intro first member
        obtain ⟨length, executed, before, same⟩ := kept first member
        exact ⟨length, executed, mem_append_left _ before, same⟩
      intro first member
      simp only at member
      split at member
      · rcases mem_append.mp member with known | last
        · exact old first known
        · rw [mem_singleton] at last
          have length := passed_sigLen passed_on
          rw [last]
          exact ⟨length, written, mem_append_right _ (mem_singleton_self _), rfl⟩
      · exact old first member
  | callback index => exact kept.callback index
  | clear jobid => exact kept.fewer (clearByJobid_subset jobid _)
  | destroy jobid => exact kept.fewer filter_sublist.subset
  | clearList => exact kept.fewer (nil_subset _)

theorem Kept.served {events : List Event} (kept : Kept daemon) :
    ∀ step ∈ served setup daemon events, Kept step.1 := by
  induction events generalizing daemon with
  | nil =>
    intro step member
    exact absurd member not_mem_nil
  | cons event events induction =>
    have later := induction (@Kept.handle setup _ kept event)
    intro step member
    cases event with
    | request site request =>
      rcases mem_cons.mp member with rfl | behind
      · exact kept
      · exact later step behind
    | callback index => exact later step member
    | clear jobid => exact later step member
    | destroy jobid => exact later step member
    | clearList => exact later step member

/-! ## The checks -/

theorem checkFirst_ok
    (checked : checkFirst setup data cred = .ok ()) :
    SignedBy setup cred (credBytes data cred) := by
  unfold checkFirst at checked
  cases decoded : setup.munge cred.sig with
  | none =>
    rw [decoded] at checked
    exact absurd checked (by simp)
  | some signed =>
    rw [decoded] at checked
    simp only at checked
    split at checked
    · exact absurd checked (by simp)
    · rename_i length
      split at checked
      · exact absurd checked (by simp)
      · rename_i bytes
        split at checked
        · exact absurd checked (by simp)
        · rename_i user
          refine ⟨signed, decoded, ?_, by simpa using user⟩
          rw [credBytes, not_not.mp length]
          exact not_not.mp bytes

/-- A later block finds any first block of its file under job 0. -/
theorem checkLater_ok_iff (kept : Kept daemon) (fresh : Fresh bcast)
    (later : bcast.blockNumber ≠ 1) :
    checkLater time (daemon.bcastList ++ [bcast]) bcast cred = .ok ()
      ↔ KnownUnderZero daemon bcast ∧ time ≤ cred.etime := by
  have job : bcast.hID.jobid = 0 := by
    rw [fresh.1]
    rfl
  have found : ∀ first, bcastFind (daemon.bcastList ++ [bcast]) 0
      bcast.fileName 1 = some first → first ∈ daemon.bcastList
        ∧ first.blockNumber = 1 ∧ first.hID.jobid = 0
        ∧ first.fileName = bcast.fileName := by
    intro first is_first
    have matched := find?_some is_first
    have member := mem_of_find?_eq_some is_first
    simp at matched
    obtain ⟨⟨number, zero⟩, file⟩ := matched
    rcases mem_append.mp member with known | own
    · exact ⟨known, number.symm, zero, file⟩
    · rw [mem_singleton] at own
      rw [own] at number
      exact absurd number.symm later
  unfold checkLater
  rw [job]
  cases is_first : bcastFind (daemon.bcastList ++ [bcast]) 0 bcast.fileName 1 with
  | none =>
    constructor
    · intro checked
      exact absurd checked (by simp)
    · rintro ⟨⟨first, member, number, zero, file⟩, -⟩
      have missed := find?_eq_none.mp is_first first (mem_append_left _ member)
      exact absurd missed (by simp [number, zero, file])
  | some first =>
    obtain ⟨member, number, zero, file⟩ := found first is_first
    have same : sameBytes bcast.sig first.sig first.sigLen = true := by
      rw [(kept first member).1]
      simp [sameBytes]
    simp only [same, Bool.true_eq_false, if_false]
    split
    · rename_i expired
      constructor
      · intro checked
        exact absurd checked (by simp)
      · rintro ⟨-, valid⟩
        omega
    · rename_i valid
      exact ⟨fun _ => ⟨⟨first, member, number, zero, file⟩, by omega⟩,
        fun _ => rfl⟩

theorem extractCred_later (kept : Kept daemon) (fresh : Fresh bcast) (later : bcast.blockNumber ≠ 1)
    (unpacked : unpackBCastCred setup.flags version data = some (cred, rest)) :
    extractCred setup time daemon.bcastList version data bcast = .ok (withCred bcast cred)
      ↔ KnownUnderZero daemon bcast ∧ time ≤ cred.etime := by
  rw [← checkLater_ok_iff kept fresh later]
  unfold extractCred
  rw [unpacked]
  simp only [if_neg later]
  cases checkLater time (daemon.bcastList ++ [bcast]) bcast cred with
  | error code => simp
  | ok => simp

/-- What makes the code right for one request. -/
theorem correct_iff (kept : Kept daemon) :
    Correct setup daemon site request ↔ Fits setup daemon site request := by
  constructor
  · rintro ⟨authorised, accepted⟩ bcast data unpacked cred rest credential later valid
    have fresh := unpackReqFileBcast_fresh unpacked
    constructor
    · intro partner
      have extracted := accepted bcast data unpacked cred rest credential later ⟨valid, partner⟩
      exact ((extractCred_later kept fresh later credential).mp extracted).1
    · rintro zero ⟨written, assigned⟩
      have extracted := (extractCred_later kept fresh later credential).mpr ⟨zero, valid⟩
      have passed_on : passed setup site daemon.bcastList request = .ok written := by
        simp only [passed, unpacked, handleFileBCast, extracted]
        exact assigned
      obtain ⟨same, cred', bytes, ⟨data', rest', unpacked', credential', -⟩,
        right⟩ := authorised written passed_on
      rw [unpacked] at unpacked'
      obtain ⟨rfl, rfl⟩ := Prod.mk.inj (Option.some.inj unpacked')
      rw [credential] at credential'
      obtain ⟨rfl, -⟩ := Prod.mk.inj (Option.some.inj credential')
      rcases right with ⟨first, -⟩ | ⟨-, partner⟩
      · exact absurd first later
      · exact partner
  · intro fits
    constructor
    · intro written passed_on
      obtain ⟨bcast, data, extracted, unpacked, is_extracted, assigned⟩ := passed_ok passed_on
      obtain ⟨cred, rest, credential, rfl, checked⟩ := extractCred_ok is_extracted
      refine ⟨bcast, cred, _, ⟨data, rest, unpacked, credential, rfl⟩, ?_⟩
      by_cases first : bcast.blockNumber = 1
      · rw [if_pos first] at checked
        exact .inl ⟨first, checkFirst_ok checked⟩
      · rw [if_neg first, checkLater_ok_iff kept
          (unpackReqFileBcast_fresh unpacked) first] at checked
        obtain ⟨zero, valid⟩ := checked
        exact .inr ⟨valid, (fits bcast data unpacked cred rest credential
          first valid).2 zero ⟨written, assigned⟩⟩
    · intro bcast data unpacked cred rest credential later authorised
      have zero := (fits bcast data unpacked cred rest credential later authorised.1).1 authorised.2
      exact (extractCred_later kept (unpackReqFileBcast_fresh unpacked) later
        credential).mpr ⟨zero, authorised.1⟩

/-- In a run all blocks are authorised, and authorised ones accepted, exactly if
each later block meets a first block under job 0 when it has a partner. -/
theorem blocks_authorised_iff (setup : Setup) (events : List Event) :
    (∀ step ∈ served setup .start events, Correct setup step.1 step.2.1 step.2.2)
      ↔ ∀ step ∈ served setup .start events, Fits setup step.1 step.2.1 step.2.2 := by
  have start : Kept .start := fun _ member => absurd member not_mem_nil
  exact forall₂_congr fun step member => correct_iff (start.served step member)

/-! ## A file of two blocks -/

def smallFlags : Flags := { byteOrder := true, typeInfo := false }

def smallItems (items : List Item) : List UInt8 := items.flatMap (Item.encode smallFlags)

/-- The credential of job 7. -/
def smallCred : List UInt8 :=
  smallItems [.int .time 8 1, .int .time 8 9, .int .uint32 4 7,
    .int .uint32 4 0, .int .uint32 4 0, .int .uint32 4 5, .int .uint32 4 5,
    .string [117], .array .uint32 4 [], .string [110]]

def smallRequest (blockNumber : Nat) : Request :=
  { version := slurm2302, uid := 5
    data := psdbNew (smallItems [.int .uint32 4 blockNumber,
      .int .uint16 2 0, .int .uint16 2 0, .int .uint16 2 448,
      .int .uint32 4 5, .string [117], .int .uint32 4 5, .int .time 8 0,
      .int .time 8 0, .string [102], .int .uint32 4 1, .int .uint32 4 1,
      .int .uint64 8 (blockNumber - 1), .int .uint64 8 2, .data [65]]
      ++ smallCred ++ smallItems [.string [115]]) }

def smallSetup : Setup :=
  { flags := smallFlags, slurmUserID := 1
    munge := fun sig => if sig = [115] then some ⟨smallCred, 1, 1⟩ else none }

def smallSite : Site :=
  { time := 2
    job := fun jobid => if jobid = 7 then some ⟨5, 5, [117]⟩ else none
    alloc := fun _ => none, denied := fun _ => false, startForwarder := true }

theorem correct_second {first second : Request}
    (correct : ∀ step ∈ served setup daemon
      [.request site first, .request site second], Correct setup step.1 step.2.1 step.2.2) :
    Correct setup (handle setup daemon (.request site first)) site second :=
  correct (handle setup daemon (.request site first), site, second)
    (mem_cons_of_mem _ mem_cons_self)

/-- A later block of another job than 0 does not find its partner. -/
theorem later_refused {first : BCast} (kept : Kept daemon) (list : daemon.bcastList = [first])
    (job : first.hID.jobid ≠ 0)
    (unpacked : unpackReqFileBcast setup.flags request.version request.data = some (bcast, data))
    (credential : unpackBCastCred setup.flags request.version data = some (cred, rest))
    (later : bcast.blockNumber ≠ 1) (authorised : LaterAuthorised daemon site bcast cred) :
    ¬Correct setup daemon site request := by
  intro correct
  have extracted := correct.2 bcast data unpacked cred rest credential later authorised
  obtain ⟨⟨other, inside, -, zero, -⟩, -⟩ := (extractCred_later kept
    (unpackReqFileBcast_fresh unpacked) later credential).mp extracted
  rw [list, mem_singleton] at inside
  rw [inside] at zero
  exact job zero

/-- The second block of a file is refused. -/
theorem not_blocks_authorised : ¬∀ (setup : Setup) (events : List Event),
    ∀ step ∈ served setup .start events, Correct setup step.1 step.2.1 step.2.2 := by
  intro claim
  have correct := correct_second (claim smallSetup
    [.request smallSite (smallRequest 1), .request smallSite (smallRequest 2)])
  have kept : Kept (handle smallSetup .start (.request smallSite (smallRequest 1))) :=
    Kept.handle (fun _ member => absurd member not_mem_nil) _
  have known : ((handle smallSetup .start
      (.request smallSite (smallRequest 1))).bcastList.map fun first =>
        (first.blockNumber, first.hID.jobid, first.fileName, first.sig))
      = [(1, 7, [102], some [115])] := by
    decide +kernel
  have parsed : ((unpackReqFileBcast smallSetup.flags (smallRequest 2).version
      (smallRequest 2).data).bind fun block =>
        (unpackBCastCred smallSetup.flags (smallRequest 2).version
          block.2).map fun credential =>
            (block.1.blockNumber, block.1.fileName, credential.1.etime,
              credential.1.hID.jobid, credential.1.sig))
      = some (2, [102], 9, 7, [115]) := by
    decide +kernel
  generalize handle smallSetup .start (.request smallSite (smallRequest 1))
    = daemon at correct kept known
  generalize smallRequest 2 = request at correct parsed
  obtain ⟨first, list, is_first⟩ := map_eq_singleton_iff.mp known
  simp only [Prod.mk.injEq] at is_first
  obtain ⟨number, jobid, file, sig⟩ := is_first
  have member : first ∈ daemon.bcastList := by
    rw [list]
    exact mem_singleton_self first
  obtain ⟨⟨bcast, data⟩, unpacked, parsed⟩ := bind_eq_some_iff.mp parsed
  obtain ⟨⟨cred, rest⟩, credential, equal⟩ := map_eq_some_iff.mp parsed
  simp only [Prod.mk.injEq] at equal
  obtain ⟨number', file', etime, jobid', sig'⟩ := equal
  have valid : smallSite.time ≤ cred.etime := by
    rw [etime]
    show (2 : Int) ≤ 9
    omega
  have partner : Partner daemon bcast cred :=
    ⟨first, member, number, jobid.trans jobid'.symm, file.trans file'.symm,
      by rw [sig, sig'], (kept first member).2⟩
  exact later_refused kept list (by omega) unpacked credential (by omega) ⟨valid, partner⟩ correct

end Psmgmt.Broadcast
