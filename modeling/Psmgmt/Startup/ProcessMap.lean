import Psmgmt.Library.History

/-!
# The mapping of processes to nodes

`extractNodeInformation()` and `getProcessMap()` of `spawner.c`.
-/

namespace Psmgmt.Startup

open List

def PMI_VALLEN_MAX : Nat := 1024 - 128 - 32 - 48

structure Infos where
  uniqNodeIDs : List Int := []
  numProcPerNode : List Nat := []
  jobLocalNodeIDs : List Nat := []
  nodeLocalProcIDs : List Nat := []

/-- The search for a known node, from the last one. -/
def search (uniqNodeIDs : List Int) (node : Int) : Nat → Option Nat
  | 0 => none
  | i + 1 => if uniqNodeIDs[i]? = some node then some i else search uniqNodeIDs node i

def setRankInfos (infos : Infos) (node : Int) : Infos :=
  let numUniqNodes := infos.uniqNodeIDs.length
  match search infos.uniqNodeIDs node numUniqNodes with
  | some i =>
    { infos with
      nodeLocalProcIDs := infos.nodeLocalProcIDs ++ [infos.numProcPerNode.getD i 0]
      numProcPerNode := infos.numProcPerNode.modify i (· + 1)
      jobLocalNodeIDs := infos.jobLocalNodeIDs ++ [i] }
  | none =>
    { uniqNodeIDs := infos.uniqNodeIDs ++ [node]
      nodeLocalProcIDs := infos.nodeLocalProcIDs ++ [0]
      numProcPerNode := infos.numProcPerNode ++ [1]
      jobLocalNodeIDs := infos.jobLocalNodeIDs ++ [numUniqNodes] }

def extractNodeInformation (nodeList : List Int) : Infos := nodeList.foldl setRankInfos {}

/-! ## The map -/

inductive Stop where
  | null
  | overrun
  deriving DecidableEq

structure Block where
  sid : Nat
  nodes : Nat
  procs : Nat

/-- `,(%i,%i,%i)` -/
def Block.text (block : Block) : List Char :=
  ',' :: '(' :: (Nat.toDigits 10 block.sid ++ ',' ::
    (Nat.toDigits 10 block.nodes ++ ',' :: (Nat.toDigits 10 block.procs ++ [')'])))

def strcat (pMap buf : List Char) : Except Stop (List Char) :=
  if pMap.length + buf.length + 1 > PMI_VALLEN_MAX then .error .overrun
  else .ok (pMap ++ buf)

/-- What `snprintf()` leaves in `buf` is appended if there is room. -/
def append (pMap text : List Char) : Except Stop (List Char) :=
  let buf := text.take (64 - 1)
  if (PMI_VALLEN_MAX : Int) - pMap.length - 1 - buf.length < 0 then .error .null
  else strcat pMap buf

structure Mapping where
  sid : Nat := 0
  nodeCount : Nat := 0
  procCount : Nat := 0
  oldProcCount : Nat := 0
  pMap : List Char

def mapNode (numUniqNodes i procCount : Nat) (m : Mapping) : Except Stop Mapping :=
  if i = 0 ∨ m.oldProcCount = procCount then
    .ok { m with
      procCount, oldProcCount := procCount
      nodeCount := if i + 1 ≠ numUniqNodes then m.nodeCount + 1 else m.nodeCount }
  else do
    let pMap ← append m.pMap (Block.text ⟨m.sid, m.nodeCount, m.oldProcCount⟩)
    .ok
      { sid := m.sid + m.nodeCount
        nodeCount := if i + 1 ≠ numUniqNodes then 1 else 0
        procCount, oldProcCount := procCount, pMap }

def mapLoop (numUniqNodes : Nat) : Nat → List Nat → Mapping → Except Stop Mapping
  | _, [], m => .ok m
  | i, procCount :: rest, m => do
    mapLoop numUniqNodes (i + 1) rest (← mapNode numUniqNodes i procCount m)

def getProcessMap (spawned : Bool) (np : Nat) (infos : Infos) : Except Stop (List Char) :=
  if spawned then
    .ok (("(vector,(0,".toList ++ Nat.toDigits 10 np ++ ",1))".toList).take (PMI_VALLEN_MAX - 1))
  else do
    let m ← mapLoop infos.uniqNodeIDs.length 0 infos.numProcPerNode
      { pMap := "(vector".toList }
    append m.pMap (Block.text ⟨m.sid, m.nodeCount + 1, m.procCount⟩ ++ [')'])

/-! ## Its meaning -/

def Block.expand (block : Block) : List Nat :=
  (range block.nodes).flatMap fun k => replicate block.procs (block.sid + k)

def render (blocks : List Block) : List Char :=
  "(vector".toList ++ (blocks.flatMap Block.text ++ [')'])

/-- The text is a map from which the node of each rank is read. -/
structure Describes (nodeList : List Int) (text : List Char) : Prop where
  short : text.length < PMI_VALLEN_MAX
  placed : ∃ blocks, text = render blocks ∧ (blocks.flatMap Block.expand).length = nodeList.length ∧
    blocks.flatMap Block.expand = (extractNodeInformation nodeList).jobLocalNodeIDs

/-- A node that is left does not come again. -/
def Grouped : List Int → Prop :=
  Lawful fun before node => node ∈ before → before.getLast? = some node

/-! ## The nodes of the ranks -/

structure Extracted (nodeList : List Int) (infos : Infos) : Prop where
  unique : infos.uniqNodeIDs.Nodup
  members : ∀ node, node ∈ infos.uniqNodeIDs ↔ node ∈ nodeList
  ids : infos.jobLocalNodeIDs = nodeList.map (infos.uniqNodeIDs.idxOf ·)
  counts : infos.numProcPerNode = (range infos.uniqNodeIDs.length).map
    (infos.jobLocalNodeIDs.count ·)

variable {nodeList : List Int} {infos : Infos} {node : Int}

theorem search_eq (unique : infos.uniqNodeIDs.Nodup) {bound : Nat}
    (inside : bound ≤ infos.uniqNodeIDs.length) :
    search infos.uniqNodeIDs node bound =
      if infos.uniqNodeIDs.idxOf node < bound then
        some (infos.uniqNodeIDs.idxOf node)
      else none := by
  induction bound with
  | zero => rfl
  | succ i induction =>
    rw [search, induction (by omega), getElem?_eq_getElem (by omega)]
    split
    · next here =>
      have same := unique.idxOf_getElem i (by omega)
      rw [Option.some.inj here] at same
      rw [same, if_pos (by omega)]
    · next other =>
      have apart : infos.uniqNodeIDs.idxOf node ≠ i := by
        rintro rfl
        exact other (congrArg some (getElem_idxOf (by omega)))
      split
      · rw [if_pos (by omega)]
      · rw [if_neg (by omega)]

theorem Extracted.step (extracted : Extracted nodeList infos) :
    Extracted (nodeList ++ [node]) (setRankInfos infos node) := by
  rw [setRankInfos, search_eq extracted.unique (Nat.le_refl _)]
  by_cases known : node ∈ infos.uniqNodeIDs
  · rw [if_pos (idxOf_lt_length_of_mem known)]
    refine ⟨extracted.unique, fun other => ?_, ?_, ?_⟩
    · rw [extracted.members, mem_append, mem_singleton, or_iff_left_of_imp]
      rintro rfl
      exact (extracted.members _).mp known
    · simp [extracted.ids]
    · apply ext_getElem
      · simp [extracted.counts]
      · intro j _ _
        simp only [extracted.counts, getElem_modify, getElem_map, getElem_range,
          count_append, count_singleton, beq_iff_eq]
        split <;> simp [*]
  · rw [if_neg (by simpa [idxOf_lt_length_iff] using known)]
    have below : infos.uniqNodeIDs.length ∉ infos.jobLocalNodeIDs := by
      rw [extracted.ids, mem_map]
      rintro ⟨other, member, same⟩
      have inside := idxOf_lt_length_of_mem ((extracted.members other).mpr member)
      omega
    refine ⟨?_, fun other => ?_, ?_, ?_⟩
    · exact nodup_append.mpr ⟨extracted.unique, nodup_singleton _, fun _ member _ same =>
        fun equal => known (mem_singleton.mp same ▸ equal ▸ member)⟩
    · simp [extracted.members]
    · rw [map_append, extracted.ids, map_singleton, idxOf_append_of_notMem known]
      simp only [idxOf_cons_self, Nat.add_zero]
      congr 1
      exact map_congr_left fun other member =>
        (idxOf_append_of_mem ((extracted.members other).mpr member)).symm
    · simp only [extracted.counts, length_append, length_singleton, range_succ,
        map_append, map_singleton, count_append, count_eq_zero_of_not_mem below]
      congr 1
      · refine map_congr_left fun j member => ?_
        have apart := mem_range.mp member
        rw [count_singleton, if_neg (by simp; omega), Nat.add_zero]
      · simp

theorem extracted (nodeList : List Int) : Extracted nodeList (extractNodeInformation nodeList) := by
  induction nodeList using List.reverseRecOn with
  | nil => exact ⟨nodup_nil, fun _ => Iff.rfl, rfl, rfl⟩
  | append_singleton nodeList node induction =>
    rw [extractNodeInformation, foldl_append]
    exact induction.step

theorem Extracted.ascends (extracted : Extracted nodeList infos)
    (sorted : infos.jobLocalNodeIDs.Pairwise (· ≤ ·)) (known : node ∈ nodeList) :
    (∀ j ∈ infos.jobLocalNodeIDs, j ≤ infos.uniqNodeIDs.idxOf node) ↔
      nodeList.getLast? = some node := by
  rw [extracted.ids] at sorted ⊢
  rcases eq_nil_or_concat nodeList with rfl | ⟨before, last, rfl⟩
  · cases known
  simp only [concat_eq_append, map_append, map_singleton, pairwise_append,
    mem_append, mem_singleton, getLast?_append, getLast?_singleton,
    Option.some_or, Option.some.injEq, mem_map] at sorted known ⊢
  constructor
  · intro most
    rcases known with earlier | rfl
    · have high := most _ (.inr rfl)
      have low := sorted.2.2 _ ⟨node, earlier, rfl⟩ _ rfl
      refine (idxOf_inj ?_).mp (Nat.le_antisymm high low)
      exact (extracted.members last).mpr (by simp)
    · rfl
  · rintro rfl j (earlier | rfl)
    · exact sorted.2.2 j earlier _ rfl
    · exact Nat.le_refl _

theorem setRankInfos_ids (extracted : Extracted nodeList infos) :
    (setRankInfos infos node).jobLocalNodeIDs =
      infos.jobLocalNodeIDs ++ [infos.uniqNodeIDs.idxOf node] := by
  rw [setRankInfos, search_eq extracted.unique (Nat.le_refl _)]
  by_cases known : infos.uniqNodeIDs.idxOf node < infos.uniqNodeIDs.length
  · rw [if_pos known]
  · rw [if_neg known]
    have most := idxOf_le_length (a := node) (l := infos.uniqNodeIDs)
    rw [Nat.le_antisymm most (by omega)]

/-- The ranks are on nodes of ascending numbers if and only if no node comes
again. -/
theorem sorted_iff (nodeList : List Int) :
    (extractNodeInformation nodeList).jobLocalNodeIDs.Pairwise (· ≤ ·) ↔ Grouped nodeList := by
  induction nodeList using List.reverseRecOn with
  | nil => exact ⟨fun _ => .nil, fun _ => Pairwise.nil⟩
  | append_singleton nodeList node induction =>
    have known := extracted nodeList
    have step : extractNodeInformation (nodeList ++ [node]) =
        setRankInfos (extractNodeInformation nodeList) node := foldl_concat ..
    rw [step, setRankInfos_ids known, pairwise_append, induction]
    have latest (grouped : Grouped nodeList) :
        (∀ j ∈ (extractNodeInformation nodeList).jobLocalNodeIDs,
          j ≤ (extractNodeInformation nodeList).uniqNodeIDs.idxOf node) ↔
          (node ∈ nodeList → nodeList.getLast? = some node) := by
      by_cases member : node ∈ nodeList
      · rw [known.ascends (induction.mpr grouped) member]
        simp [member]
      · refine ⟨fun _ inside => absurd inside member, fun _ j inside => ?_⟩
        rw [known.ids, mem_map] at inside
        obtain ⟨other, there, rfl⟩ := inside
        rw [idxOf_of_notMem fun here => member ((known.members node).mp here)]
        exact idxOf_le_length
    constructor
    · rintro ⟨grouped, -, most⟩
      exact grouped.concat ((latest grouped).mp fun j inside =>
        most j inside _ (mem_singleton.mpr rfl))
    · intro grouped
      have before : Grouped nodeList := fun before entry after split =>
        grouped before entry (after ++ [node]) (by simp [split])
      refine ⟨before, pairwise_singleton _ _, fun j inside i here => ?_⟩
      rw [mem_singleton.mp here]
      exact (latest before).mpr (grouped nodeList node [] rfl) j inside

/-! ## The numbers of processes -/

/-- The nodes of the ranks if each node's ranks follow each other. -/
def spread : Nat → List Nat → List Nat
  | _, [] => []
  | i, procs :: rest => replicate procs i ++ spread (i + 1) rest

theorem spread_least (i : Nat) (counts : List Nat) : ∀ j ∈ spread i counts, i ≤ j := by
  induction counts generalizing i with
  | nil => exact fun _ member => nomatch member
  | cons procs rest induction =>
    intro j member
    rcases mem_append.mp member with here | later
    · exact Nat.le_of_eq (eq_of_mem_replicate here).symm
    · exact Nat.le_of_succ_le (induction (i + 1) j later)

theorem spread_sorted (i : Nat) (counts : List Nat) : (spread i counts).Pairwise (· ≤ ·) := by
  induction counts generalizing i with
  | nil => exact Pairwise.nil
  | cons procs rest induction =>
    refine pairwise_append.mpr ⟨?_, induction (i + 1), fun j here k later => ?_⟩
    · simp [pairwise_replicate]
    · have least := spread_least (i + 1) rest k later
      have same := eq_of_mem_replicate here
      omega

theorem count_spread (i j : Nat) (counts : List Nat) :
    (spread i counts).count (i + j) = counts.getD j 0 := by
  induction counts generalizing i j with
  | nil => rfl
  | cons procs rest induction =>
    rw [spread, count_append, count_replicate]
    cases j with
    | zero =>
      have later : i ∉ spread (i + 1) rest := fun member =>
        absurd (spread_least (i + 1) rest i member) (by omega)
      simp [count_eq_zero_of_not_mem later]
    | succ j =>
      rw [if_neg (by simp), show i + (j + 1) = i + 1 + j by omega, induction]
      simp

theorem Extracted.spread_iff (extracted : Extracted nodeList infos) :
    spread 0 infos.numProcPerNode = infos.jobLocalNodeIDs ↔
      infos.jobLocalNodeIDs.Pairwise (· ≤ ·) := by
  refine ⟨fun same => same ▸ spread_sorted 0 _, fun sorted => ?_⟩
  refine Perm.eq_of_pairwise (fun _ _ _ _ => Nat.le_antisymm)
    (spread_sorted 0 _) sorted (perm_iff_count.mpr fun j => ?_)
  have count := count_spread 0 j infos.numProcPerNode
  rw [Nat.zero_add] at count
  rw [count, extracted.counts, getD_eq_getElem?_getD, getElem?_map]
  by_cases inside : j < infos.uniqNodeIDs.length
  · simp [inside]
  · have absent : j ∉ infos.jobLocalNodeIDs := by
      rw [extracted.ids, mem_map]
      rintro ⟨other, member, rfl⟩
      exact inside (idxOf_lt_length_of_mem ((extracted.members other).mpr member))
    simp [inside, count_eq_zero_of_not_mem absent]

/-! ## The blocks -/

theorem Block.expand_run {sid nodes procs old i : Nat} (place : sid + nodes = i)
    (run : i = 0 ∨ old = procs) :
    Block.expand ⟨sid, nodes + 1, procs⟩ = Block.expand ⟨sid, nodes, old⟩ ++ replicate procs i := by
  rw [Block.expand, range_succ, flatMap_append, flatMap_singleton, place]
  rcases run with rfl | rfl
  · obtain rfl : nodes = 0 := by omega
    rfl
  · rfl

/-- A number that an `int` holds. -/
def Small (value : Nat) : Prop := value < 2 ^ 31

theorem length_digits {value : Nat} (small : Small value) : (Nat.toDigits 10 value).length ≤ 10 :=
  (Nat.length_toDigits_le_iff (by decide) (by decide)).mpr (Nat.lt_of_lt_of_le small (by decide))

theorem Block.length_text {block : Block} (sid : Small block.sid) (nodes : Small block.nodes)
    (procs : Small block.procs) : block.text.length ≤ 35 := by
  have sid := length_digits sid
  have nodes := length_digits nodes
  have procs := length_digits procs
  simp only [Block.text, length_cons, length_append, length_nil]
  omega

theorem append_eq {pMap text : List Char} (short : text.length ≤ 63) : append pMap text =
      if pMap.length + text.length < PMI_VALLEN_MAX then .ok (pMap ++ text)
      else .error .null := by
  rw [append, take_of_length_le short]
  split
  · rw [if_neg (by omega)]
  · rw [strcat, if_neg (by omega), if_pos (by omega)]

/-- What the rest of the map is, if there is room for it. -/
inductive Ends (pMap : List Char) (places : List Nat) :
    Except Stop (List Char) → Prop where
  | null : Ends pMap places (.error .null)
  | text (blocks : List Block) (expands : blocks.flatMap Block.expand = places)
      (short : (pMap ++ (blocks.flatMap Block.text ++ [')'])).length < PMI_VALLEN_MAX) :
      Ends pMap places (.ok (pMap ++ (blocks.flatMap Block.text ++ [')'])))

theorem Ends.cons {pMap : List Char} {places : List Nat} {result : Except Stop (List Char)}
    (block : Block) (ends : Ends (pMap ++ block.text) places result) : Ends pMap (block.expand ++
    places) result := by
  cases ends with
  | null => exact .null
  | text blocks expands short =>
    have shape : pMap ++ block.text ++ (blocks.flatMap Block.text ++ [')']) =
        pMap ++ ((block :: blocks).flatMap Block.text ++ [')']) := by simp
    rw [shape] at short ⊢
    exact .text _ (by rw [flatMap_cons, expands]) short

/-- What follows the loop. -/
def finish (m : Mapping) : Except Stop (List Char) :=
  append m.pMap (Block.text ⟨m.sid, m.nodeCount + 1, m.procCount⟩ ++ [')'])

variable {num i sid nodes procs old : Nat} {pMap : List Char}

theorem finish_ends (small : Small sid ∧ Small (nodes + 1) ∧ Small procs) :
    Ends pMap (Block.expand ⟨sid, nodes + 1, procs⟩) (finish ⟨sid, nodes, procs, old, pMap⟩) := by
  have short := @Block.length_text ⟨sid, nodes + 1, procs⟩ small.1 small.2.1 small.2.2
  rw [finish, append_eq (by
    rw [length_append, length_singleton]
    exact Nat.le_trans (Nat.succ_le_succ short) (by decide))]
  split
  · next room =>
    have ends := @Ends.text pMap _ [⟨sid, nodes + 1, procs⟩] rfl
    simp only [flatMap_cons, flatMap_nil, append_nil] at ends
    exact ends (by rwa [length_append])
  · exact .null

theorem mapLoop_ends {counts : List Nat} (nonempty : counts ≠ [])
    (total : i + counts.length = num) (place : sid + nodes = i) (few : Small num)
    (small : ∀ procs ∈ counts, Small procs) (smallOld : Small old) :
    Ends pMap (Block.expand ⟨sid, nodes, old⟩ ++ spread i counts)
      (mapLoop num i counts ⟨sid, nodes, procs, old, pMap⟩ >>= finish) := by
  induction counts generalizing i sid nodes procs old pMap with
  | nil => exact absurd rfl nonempty
  | cons next rest induction =>
    have here := small next mem_cons_self
    have later : ∀ procs ∈ rest, Small procs := fun procs member =>
      small procs (mem_cons_of_mem _ member)
    have within : Small i ∧ Small sid ∧ Small (nodes + 1) := by
      simp only [length_cons, Small] at total few ⊢
      omega
    rw [mapLoop, mapNode, spread]
    split
    · next run =>
      rw [← append_assoc, ← Block.expand_run place run]
      cases rest with
      | nil =>
        rw [if_neg (by simpa using total), spread, append_nil]
        exact finish_ends ⟨within.2.1, within.2.2, here⟩
      | cons second others =>
        rw [length_cons, length_cons] at total
        rw [if_pos (by omega)]
        exact induction (cons_ne_nil _ _) (by rw [length_cons]; omega) (by omega) later here
    · have short := @Block.length_text ⟨sid, nodes, old⟩ within.2.1
        (Nat.lt_of_succ_lt within.2.2) smallOld
      have single : replicate next i = Block.expand ⟨i, 1, next⟩ := by
        simp [Block.expand]
      rw [append_eq (Nat.le_trans short (by decide)), single]
      split
      · refine Ends.cons ⟨sid, nodes, old⟩ ?_
        cases rest with
        | nil =>
          rw [if_neg (by simpa using total), spread, append_nil, ← place]
          exact finish_ends ⟨place ▸ within.1, show 1 < 2 ^ 31 by decide, here⟩
        | cons second others =>
          rw [length_cons, length_cons] at total
          rw [if_pos (by omega), ← place]
          exact induction (cons_ne_nil _ _) (by rw [length_cons]; omega) rfl later here
      · exact .null

/-! ## Reading the text -/

theorem digits_inj {a b : Nat} {c : Char} {x y : List Char} (other : c.isDigit = false) (same :
    Nat.toDigits 10 a ++ c :: x = Nat.toDigits 10 b ++ c :: y) : a = b ∧ x = y := by
  have digits (n : Nat) : ∀ d ∈ Nat.toDigits 10 n, d.isDigit = true :=
    fun _ member => Nat.isDigit_of_mem_toDigits (by decide) (by decide) member
  have first := congrArg (takeWhile Char.isDigit) same
  have rest := congrArg (dropWhile Char.isDigit) same
  rw [takeWhile_append_of_pos (digits a), takeWhile_append_of_pos (digits b),
    takeWhile_cons, takeWhile_cons, other] at first
  rw [dropWhile_append_of_pos (digits a), dropWhile_append_of_pos (digits b),
    dropWhile_cons, dropWhile_cons, other] at rest
  have value := congrArg (Nat.ofDigitChars 10 · 0) (append_cancel_right first)
  simp only [Nat.ofDigitChars_ten_toDigits] at value
  exact ⟨value, (cons.inj rest).2⟩

theorem Block.text_inj {a b : Block} {x y : List Char}
    (same : a.text ++ x = b.text ++ y) : a = b ∧ x = y := by
  simp only [Block.text, cons_append, append_assoc, nil_append, cons.injEq, true_and] at same
  obtain ⟨sid, rest⟩ := digits_inj (by decide) same
  obtain ⟨nodes, rest⟩ := digits_inj (by decide) rest
  obtain ⟨procs, last⟩ := digits_inj (by decide) rest
  obtain ⟨_, _, _⟩ := a
  obtain ⟨_, _, _⟩ := b
  dsimp only at sid nodes procs
  subst sid nodes procs
  exact ⟨rfl, last⟩

theorem blocks_inj {blocks others : List Block} (same : blocks.flatMap Block.text ++ [')'] =
      others.flatMap Block.text ++ [')']) : blocks = others := by
  induction blocks generalizing others with
  | nil =>
    cases others with
    | nil => rfl
    | cons block rest => simp [Block.text] at same
  | cons block rest induction =>
    cases others with
    | nil => simp [Block.text] at same
    | cons other others =>
      rw [flatMap_cons, flatMap_cons, append_assoc, append_assoc] at same
      obtain ⟨rfl, rest⟩ := Block.text_inj same
      rw [induction rest]

/-- The map gives every rank's node if and only if no node comes again after
another one. -/
theorem getProcessMap_iff (nodeList : List Int) (some : nodeList ≠ [])
    (few : nodeList.length < 2 ^ 31) :
    getProcessMap false nodeList.length (extractNodeInformation nodeList) ≠ .error .overrun ∧
      ∀ text, getProcessMap false nodeList.length (extractNodeInformation nodeList) = .ok text →
        (Describes nodeList text ↔ Grouped nodeList) := by
  have known := extracted nodeList
  rw [← sorted_iff, ← known.spread_iff]
  have length : (extractNodeInformation nodeList).jobLocalNodeIDs.length =
      nodeList.length := by rw [known.ids, length_map]
  have nodes : (extractNodeInformation nodeList).uniqNodeIDs.length ≤ nodeList.length :=
    (known.unique.subperm fun _ member => (known.members _).mp member).length_le
  have ends := @mapLoop_ends (extractNodeInformation nodeList).uniqNodeIDs.length
    0 0 0 0 0 "(vector".toList (extractNodeInformation nodeList).numProcPerNode
    (fun none => by
      obtain ⟨node, member⟩ := exists_mem_of_ne_nil _ some
      rw [known.counts, map_eq_nil_iff, range_eq_nil, length_eq_zero_iff] at none
      exact absurd ((known.members node).mpr member) (by simp [none]))
    (by rw [known.counts, length_map, length_range, Nat.zero_add]) rfl
    (Nat.lt_of_le_of_lt nodes few)
    (fun procs member => by
      rw [known.counts, mem_map] at member
      obtain ⟨j, -, rfl⟩ := member
      exact Nat.lt_of_le_of_lt (length ▸ count_le_length) few)
    (show 0 < 2 ^ 31 by decide)
  change Ends _ _ (getProcessMap false nodeList.length _) at ends
  generalize getProcessMap false nodeList.length _ = result at ends ⊢
  cases ends with
  | null => exact ⟨by simp, fun _ none => nomatch none⟩
  | text blocks expands short =>
    refine ⟨nofun, fun text ok => ?_⟩
    cases ok
    have expands : blocks.flatMap Block.expand = spread 0 _ := expands
    constructor
    · rintro ⟨-, others, same, -, placed⟩
      rw [← expands, blocks_inj (append_cancel_left same), placed]
    · intro same
      rw [same] at expands
      exact ⟨short, blocks, rfl, by rw [expands, length], expands⟩

theorem getProcessMap_iff_two : Describes [7, 7, 5] "(vector,(0,1,2),(1,1,1))".toList :=
  ((getProcessMap_iff [7, 7, 5] (by decide) (by decide)).2 _ (by decide)).mpr
    (((Lawful.nil.concat (by decide)).concat (by decide)).concat (by decide))

/-- The first node's ranks are taken for neighbours although another node's
rank is between them. -/
theorem not_describes : ¬ ∀ (nodeList : List Int) (text : List Char),
    nodeList ≠ [] → getProcessMap false nodeList.length
      (extractNodeInformation nodeList) = .ok text → Describes nodeList text := by
  intro all
  obtain ⟨-, blocks, same, -, placed⟩ := all [7, 5, 7]
    "(vector,(0,1,2),(1,1,1))".toList (by decide) (by decide)
  have same : render [⟨0, 1, 2⟩, ⟨1, 1, 1⟩] = render blocks := same
  cases blocks_inj (append_cancel_left same)
  exact absurd placed (by decide)

/-! ## The ranks on their nodes -/

theorem Extracted.count_ids (extracted : Extracted nodeList infos)
    (known : node ∈ infos.uniqNodeIDs) :
    infos.jobLocalNodeIDs.count (infos.uniqNodeIDs.idxOf node) = nodeList.count node := by
  rw [extracted.ids, count, countP_map, count]
  refine countP_congr fun other member => ?_
  simp [idxOf_inj ((extracted.members other).mpr member)]

theorem setRankInfos_procs (extracted : Extracted nodeList infos) :
    (setRankInfos infos node).nodeLocalProcIDs =
      infos.nodeLocalProcIDs ++ [nodeList.count node] := by
  rw [setRankInfos, search_eq extracted.unique (Nat.le_refl _)]
  by_cases known : node ∈ infos.uniqNodeIDs
  · have inside := idxOf_lt_length_of_mem known
    simp [inside, extracted.counts, extracted.count_ids known]
  · have absent := mt (extracted.members node).mpr known
    simp [idxOf_of_notMem known, count_eq_zero_of_not_mem absent]

/-- The ranks of each node are numbered as they come, and the node's number of
processes is theirs. -/
theorem extractNodeInformation_numbers (nodeList : List Int) :
    (extractNodeInformation nodeList).nodeLocalProcIDs =
      nodeList.mapIdx (fun rank node => (nodeList.take rank).count node) ∧
    ∀ node ∈ nodeList, (extractNodeInformation nodeList).numProcPerNode[
      (extractNodeInformation nodeList).uniqNodeIDs.idxOf node]? = some (nodeList.count node) := by
  constructor
  · induction nodeList using List.reverseRecOn with
    | nil => rfl
    | append_singleton nodeList node induction =>
      rw [extractNodeInformation, foldl_concat, ← extractNodeInformation,
        setRankInfos_procs (extracted nodeList), induction, mapIdx_concat, take_left]
      congr 1
      refine mapIdx_eq_mapIdx_iff.mpr fun rank inside => ?_
      rw [take_append_of_le_length (Nat.le_of_lt inside)]
  · intro node member
    have known := extracted nodeList
    have there := (known.members node).mpr member
    simp [known.counts, known.count_ids there, idxOf_lt_length_of_mem there]

end Psmgmt.Startup
