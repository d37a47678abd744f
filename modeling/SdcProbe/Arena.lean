import SdcProbe.ByteMemory
import SdcProbe.Fnv1a
import Mathlib.Logic.Function.Iterate

/-!
# The arena of the rbx probe

`build_arena` of `rbx.cpp` with its layout constants: two fills, the size field
of the fake stack, the image of a `std::vector<Chunk>` and, in the same loop, the
hash a correct pass has to produce. Addresses are numbers until they are used;
an `int16_t` and a `double` are their bit patterns.
-/

namespace SdcProbe.Arena

open Fnv1a ByteMemory

set_option autoImplicit false

def kArenaBase : Nat := 0x600000000000
def kStackSizeLog : Word := 20
def kFakeStackRegion : Nat := 0xc00000
def kFakeStackSizeLogOffset : Nat := 0x58
def kDataBase : Nat := kArenaBase + kFakeStackRegion
def kDataRegion : Nat := 0x100000
def kArenaBytes : Nat := kFakeStackRegion + kDataRegion

def kShadowOffset : Nat := 0x7fff8000
def kShadowBase : Nat := (kArenaBase >>> 3) + kShadowOffset
/-- `& ~0xffff` on numbers below `2^64`. -/
def clearLow16 (value : Nat) : Nat := value / 0x10000 * 0x10000
def kShadowMapBase : Nat := clearLow16 kShadowBase
def kShadowMapBytes : Nat :=
  clearLow16 (kShadowBase + (kArenaBytes >>> 3) + 0xffff) - kShadowMapBase

def kChunkCount : Nat := 64
def kNodesPerChunk : Nat := 4096
def kDataSeed : BitVec 32 := 12345

def kVectorAddress : Nat := kDataBase + 0x100
def kChunksAddress : Nat := kDataBase + 0x1000
def kNodesAddress : Nat := kDataBase + 0x10000
def kNodesStride : Nat := 0x2800

/-- `sizeof(ChunkImage)`: the double, and the three pointers of the nodes. -/
def chunkImageSize : Nat := 32

/-- A pointer made from a number. -/
def pointer (address : Nat) : Word := BitVec.ofNat 64 address

def load64 (memory : Memory 64) (address : Nat) : Word := loadWord 64 8 memory (pointer address)
def load16 (memory : Memory 64) (address : Nat) : BitVec 16 :=
  loadWord 16 2 memory (pointer address)
def store64 (memory : Memory 64) (address : Nat) (value : Word) : Memory 64 :=
  storeWord 8 memory (pointer address) value
def store16 (memory : Memory 64) (address : Nat) (value : BitVec 16) : Memory 64 :=
  storeWord 2 memory (pointer address) value

/-- What `build_arena` writes to. -/
structure ArenaState where
  memory : Memory 64
  /-- `g_thread_area` -/
  threadArea : Vector Word 16

/-- The locals of the two loops, and the memory they run over. -/
structure Build where
  memory : Memory 64
  hash : Word
  seed : BitVec 32

def fnvBytes (hash value : Word) (count : Nat) : Word :=
  (List.range count).foldl
    (fun hash i => (hash ^^^ ((value >>> (8 * i)) &&& 0xff)) * kFnvPrime) hash

def nextSeed (seed : BitVec 32) : BitVec 32 := seed * 1664525 + 1013904223

/-- `static_cast<int16_t>(seed >> 16u)` -/
def nodeOf (seed : BitVec 32) : BitVec 16 := (seed >>> 16).setWidth 16

/-- The body of the inner loop; the node is read back for the hash. -/
def buildNode (nodes : Nat) (build : Build) (n : Nat) : Build :=
  let seed := nextSeed build.seed
  let memory := store16 build.memory (nodes + 2 * n) (nodeOf seed)
  let hash := fnvBytes build.hash ((load16 memory (nodes + 2 * n)).setWidth 64) 2
  ⟨memory, hash, seed⟩

def chunkAddress (c : Nat) : Nat := kChunksAddress + c * chunkImageSize
def nodesAddress (c : Nat) : Nat := kNodesAddress + c * kNodesStride

/-- The four stores to `chunks[c]`; the last one reads the third one back. -/
def storeChunkImage (memory : Memory 64) (c : Nat) : Memory 64 :=
  let chunk := chunkAddress c
  let memory := store64 memory chunk 0
  let memory := store64 memory (chunk + 8) (pointer (nodesAddress c))
  let memory := store64 memory (chunk + 16) (pointer (nodesAddress c + kNodesPerChunk * 2))
  store64 memory (chunk + 24) (load64 memory (chunk + 16))

/-- The body of the outer loop. -/
def buildChunk (build : Build) (c : Nat) : Build :=
  let memory := storeChunkImage build.memory c
  let hash := fnvBytes build.hash (BitVec.ofNat 64 kNodesPerChunk) 8
  (List.range kNodesPerChunk).foldl (buildNode (nodesAddress c)) ⟨memory, hash, build.seed⟩

/-- The two `memset`s. -/
def clearOwned (memory : Memory 64) : Memory 64 :=
  fill (fill memory (pointer kArenaBase) kArenaBytes 0) (pointer kShadowMapBase) kShadowMapBytes 0

/-- The stores before the loop. -/
def storeHeaders (memory : Memory 64) : Memory 64 :=
  let memory := store64 memory (kArenaBase + kFakeStackSizeLogOffset) kStackSizeLog
  let memory := store64 memory kVectorAddress (pointer kChunksAddress)
  let memory := store64 memory (kVectorAddress + 8)
    (pointer (kChunksAddress + kChunkCount * chunkImageSize))
  store64 memory (kVectorAddress + 16) (load64 memory (kVectorAddress + 8))

def buildArena (state : ArenaState) : ArenaState × Word :=
  let memory := storeHeaders (clearOwned state.memory)
  let hash := fnvBytes kFnvBasis (BitVec.ofNat 64 kChunkCount) 8
  let build := (List.range kChunkCount).foldl buildChunk ⟨memory, hash, kDataSeed⟩
  (⟨build.memory, state.threadArea.set 0 (pointer kArenaBase)⟩, build.hash)

/-- The addresses `build_arena` may find in any state. -/
def Owned (address : Nat) : Prop :=
  kArenaBase ≤ address ∧ address < kArenaBase + kArenaBytes ∨
    kShadowMapBase ≤ address ∧ address < kShadowMapBase + kShadowMapBytes

/-! ### Where the stores land -/

theorem chunk_address_eq (c : Nat) : chunkAddress c = 0x600000c01000 + 32 * c := by
  unfold chunkAddress kChunksAddress kDataBase kArenaBase kFakeStackRegion chunkImageSize
  omega

theorem nodes_address_eq (c : Nat) : nodesAddress c = 0x600000c10000 + 0x2800 * c := by
  unfold nodesAddress kNodesAddress kDataBase kArenaBase kFakeStackRegion kNodesStride
  omega

section Words

variable (memory : Memory 64)

theorem load64_store64 (address : Nat) (value : Word) :
    load64 (store64 memory address value) address = value :=
  load_word_store_same _ _ _ _ (by decide) (by decide)

theorem load16_store16 (address : Nat) (value : BitVec 16) :
    load16 (store16 memory address value) address = value :=
  load_word_store_same _ _ _ _ (by decide) (by decide)

theorem store64_elsewhere (base address : Nat) (value : Word) (fits : base + 8 ≤ 2 ^ 64)
    (bound : address < 2 ^ 64) (outside : address < base ∨ base + 8 ≤ address) :
    store64 memory base value (pointer address) = memory (pointer address) :=
  store_word_elsewhere memory value 8 base address fits bound outside

theorem load64_store64_elsewhere (base address : Nat) (value : Word) (fits : base + 8 ≤ 2 ^ 64)
    (bound : address + 8 ≤ 2 ^ 64) (outside : address + 8 ≤ base ∨ base + 8 ≤ address) :
    load64 (store64 memory base value) address = load64 memory address := by
  apply load_word_congr
  intro byte lower upper
  exact store64_elsewhere memory base byte value fits (by omega) (by omega)

end Words

/-- Nothing changes but bytes at the given addresses. -/
def ChangesOnly (touched : Nat → Prop) (before after : Memory 64) : Prop :=
  ∀ address, address < 2 ^ 64 → ¬touched address →
    after (pointer address) = before (pointer address)

theorem changes_only_refl (touched : Nat → Prop) (memory : Memory 64) :
    ChangesOnly touched memory memory := fun _ _ _ => rfl

theorem ChangesOnly.trans {touched : Nat → Prop} {before middle after : Memory 64}
    (first : ChangesOnly touched before middle) (second : ChangesOnly touched middle after) :
    ChangesOnly touched before after := by
  intro address bound outside
  rw [second address bound outside, first address bound outside]

theorem ChangesOnly.mono {touched wider : Nat → Prop} {before after : Memory 64}
    (changes : ChangesOnly touched before after)
    (within : ∀ address, touched address → wider address) : ChangesOnly wider before after := by
  intro address bound outside
  exact changes address bound (fun inside => outside (within address inside))

theorem ChangesOnly.load64 {touched : Nat → Prop} {before after : Memory 64}
    (changes : ChangesOnly touched before after) (base : Nat) (fits : base + 8 ≤ 2 ^ 64)
    (apart : ∀ address, base ≤ address → address < base + 8 → ¬touched address) :
    load64 after base = load64 before base := by
  apply load_word_congr
  intro address lower upper
  exact changes address (by omega) (apart address lower upper)

theorem ChangesOnly.load16 {touched : Nat → Prop} {before after : Memory 64}
    (changes : ChangesOnly touched before after) (base : Nat) (fits : base + 2 ≤ 2 ^ 64)
    (apart : ∀ address, base ≤ address → address < base + 2 → ¬touched address) :
    load16 after base = load16 before base := by
  apply load_word_congr
  intro address lower upper
  exact changes address (by omega) (apart address lower upper)

theorem store64_changes_only (memory : Memory 64) (base : Nat) (value : Word)
    (fits : base + 8 ≤ 2 ^ 64) :
    ChangesOnly (fun address => base ≤ address ∧ address < base + 8) memory
      (store64 memory base value) := by
  intro address bound outside
  exact store64_elsewhere memory base address value fits bound (by omega)

theorem store16_changes_only (memory : Memory 64) (base : Nat) (value : BitVec 16)
    (fits : base + 2 ≤ 2 ^ 64) :
    ChangesOnly (fun address => base ≤ address ∧ address < base + 2) memory
      (store16 memory base value) := by
  intro address bound outside
  exact store_word_elsewhere memory value 2 base address fits bound (by omega)

/-! ### One chunk -/

def InImage (c address : Nat) : Prop := chunkAddress c ≤ address ∧ address < chunkAddress c + 32

def InNodes (c address : Nat) : Prop :=
  nodesAddress c ≤ address ∧ address < nodesAddress c + 2 * kNodesPerChunk

def InChunk (c address : Nat) : Prop := InImage c address ∨ InNodes c address

/-- No byte belongs to two chunks. -/
theorem chunks_disjoint (c d address : Nat) (inC : c < kChunkCount) (inD : d < kChunkCount)
    (different : c ≠ d) (inside : InChunk c address) : ¬InChunk d address := by
  simp only [InChunk, InImage, InNodes, chunk_address_eq, nodes_address_eq, kNodesPerChunk,
    kChunkCount] at *
  omega

/-- The generator after so many steps. -/
def lcg (steps : Nat) : BitVec 32 := nextSeed^[steps] kDataSeed

theorem lcg_succ (steps : Nat) : lcg (steps + 1) = nextSeed (lcg steps) :=
  Function.iterate_succ_apply' nextSeed steps kDataSeed

/-- The `k`-th node of the data, counted over all chunks. -/
def node (k : Nat) : BitVec 16 := nodeOf (lcg (k + 1))

/-- The data `build_arena` means to leave in chunk `c`. -/
structure ChunkHolds (memory : Memory 64) (c : Nat) : Prop where
  edited : load64 memory (chunkAddress c) = 0
  first : load64 memory (chunkAddress c + 8) = pointer (nodesAddress c)
  last : load64 memory (chunkAddress c + 16) =
    pointer (nodesAddress c + kNodesPerChunk * 2)
  nodes : ∀ n, n < kNodesPerChunk →
    load16 memory (nodesAddress c + 2 * n) = node (c * kNodesPerChunk + n)

theorem store_chunk_image_changes (memory : Memory 64) (c : Nat) (inside : c < kChunkCount) :
    ChangesOnly (InImage c) memory (storeChunkImage memory c) := by
  unfold kChunkCount at inside
  have place := chunk_address_eq c
  have step : ∀ (memory : Memory 64) (field : Nat) (value : Word), field + 8 ≤ 32 →
      ChangesOnly (InImage c) memory (store64 memory (chunkAddress c + field) value) := by
    intro memory field value room
    apply (store64_changes_only memory (chunkAddress c + field) value (by omega)).mono
    intro address bounds
    unfold InImage
    omega
  exact (((step _ 0 _ (by decide)).trans (step _ 8 _ (by decide))).trans
    (step _ 16 _ (by decide))).trans (step _ 24 _ (by decide))

theorem store_chunk_image_fields (memory : Memory 64) (c : Nat) (inside : c < kChunkCount) :
    load64 (storeChunkImage memory c) (chunkAddress c) = 0 ∧
      load64 (storeChunkImage memory c) (chunkAddress c + 8) = pointer (nodesAddress c) ∧
      load64 (storeChunkImage memory c) (chunkAddress c + 16) =
        pointer (nodesAddress c + kNodesPerChunk * 2) := by
  unfold kChunkCount at inside
  have place := chunk_address_eq c
  refine ⟨?_, ?_, ?_⟩
  · rw [storeChunkImage, load64_store64_elsewhere, load64_store64_elsewhere,
      load64_store64_elsewhere, load64_store64] <;> omega
  · rw [storeChunkImage, load64_store64_elsewhere, load64_store64_elsewhere,
      load64_store64] <;> omega
  · rw [storeChunkImage, load64_store64_elsewhere, load64_store64] <;> omega

/-- What a chunk says only depends on its own bytes. -/
theorem chunk_holds_congr {before after : Memory 64} {c : Nat} (inside : c < kChunkCount)
    (agree : ∀ address, address < 2 ^ 64 → InChunk c address →
      after (pointer address) = before (pointer address)) (holds : ChunkHolds before c) :
    ChunkHolds after c := by
  unfold kChunkCount at inside
  have chunkPlace := chunk_address_eq c
  have nodesPlace := nodes_address_eq c
  have changes : ChangesOnly (fun address => ¬InChunk c address) before after :=
    fun address bound within => agree address bound (not_not.mp within)
  have image : ∀ field, field + 8 ≤ 32 →
      load64 after (chunkAddress c + field) = load64 before (chunkAddress c + field) := by
    intro field room
    apply changes.load64 _ (by omega)
    intro address lower upper
    exact not_not.mpr (.inl ⟨by omega, by omega⟩)
  constructor
  · exact (image 0 (by decide)).trans holds.edited
  · exact (image 8 (by decide)).trans holds.first
  · exact (image 16 (by decide)).trans holds.last
  · intro n bound
    rw [← holds.nodes n bound]
    unfold kNodesPerChunk at bound
    apply changes.load16 _ (by omega)
    intro address lower upper
    exact not_not.mpr (.inr ⟨by omega, by unfold kNodesPerChunk; omega⟩)

/-! ### The loops -/

/-- The hash of so many nodes, from node `first` on. -/
def hashNodes (hash : Word) (first done : Nat) : Word :=
  (List.range done).foldl (fun hash n => fnvBytes hash ((node (first + n)).setWidth 64) 2) hash

/-- What holds after `done` iterations of the inner loop. -/
structure NodesBuilt (c first : Nat) (start : Build) (done : Nat) (build : Build) : Prop where
  seed : build.seed = lcg (first + done)
  hash : build.hash = hashNodes start.hash first done
  nodes : ∀ n, n < done → load16 build.memory (nodesAddress c + 2 * n) = node (first + n)
  changes : ChangesOnly (InNodes c) start.memory build.memory

theorem build_node_built {c first done : Nat} {start build : Build} (inside : c < kChunkCount)
    (room : done < kNodesPerChunk) (built : NodesBuilt c first start done build) :
    NodesBuilt c first start (done + 1) (buildNode (nodesAddress c) build done) := by
  unfold kChunkCount at inside
  unfold kNodesPerChunk at room
  have place := nodes_address_eq c
  have next : nextSeed build.seed = lcg (first + (done + 1)) := by
    rw [built.seed, ← lcg_succ]
    rfl
  have value : nodeOf (nextSeed build.seed) = node (first + done) := by
    rw [next]
    rfl
  have stored := store16_changes_only build.memory (nodesAddress c + 2 * done)
    (nodeOf (nextSeed build.seed)) (by omega)
  constructor
  · exact next
  · rw [hashNodes, List.range_succ, List.foldl_append, ← hashNodes, ← built.hash]
    simp only [buildNode, load16_store16, value, List.foldl_cons, List.foldl_nil]
  · intro n bound
    rcases Nat.lt_succ_iff_lt_or_eq.mp bound with before | same
    · rw [← built.nodes n before]
      apply stored.load16 _ (by omega)
      intro address lower upper
      omega
    · rw [same, ← value]
      exact load16_store16 _ _ _
  · apply built.changes.trans
    apply stored.mono
    intro address bounds
    unfold InNodes kNodesPerChunk
    omega

theorem nodes_built (c first : Nat) (start : Build) (inside : c < kChunkCount)
    (seed : start.seed = lcg first) (done : Nat) (room : done ≤ kNodesPerChunk) :
    NodesBuilt c first start done
      ((List.range done).foldl (buildNode (nodesAddress c)) start) := by
  induction done with
  | zero =>
      exact ⟨seed, rfl, fun n bound => absurd bound (Nat.not_lt_zero n),
        changes_only_refl _ _⟩
  | succ done ih =>
      rw [List.range_succ, List.foldl_append, List.foldl_cons, List.foldl_nil]
      exact build_node_built inside room (ih (Nat.le_of_succ_le room))

/-- The hash of so many chunks: the count of the nodes, then the nodes. -/
def hashChunks (hash : Word) (done : Nat) : Word :=
  (List.range done).foldl (fun hash c =>
    hashNodes (fnvBytes hash (BitVec.ofNat 64 kNodesPerChunk) 8) (c * kNodesPerChunk)
      kNodesPerChunk) hash

/-- Everything from the first chunk image on. -/
def InChunks (address : Nat) : Prop :=
  kChunksAddress ≤ address ∧ address < kArenaBase + kArenaBytes

theorem in_chunk_in_chunks (c address : Nat) (inside : c < kChunkCount)
    (within : InChunk c address) : InChunks address := by
  simp only [InChunk, InImage, InNodes, chunk_address_eq, nodes_address_eq] at within
  unfold kChunkCount at inside
  unfold kNodesPerChunk at within
  unfold InChunks kChunksAddress kDataBase kArenaBase kArenaBytes kFakeStackRegion kDataRegion
  omega

/-- What holds after `done` iterations of the outer loop. -/
structure ChunksBuilt (start : Build) (done : Nat) (build : Build) : Prop where
  seed : build.seed = lcg (done * kNodesPerChunk)
  hash : build.hash = hashChunks start.hash done
  chunks : ∀ c, c < done → ChunkHolds build.memory c
  changes : ChangesOnly InChunks start.memory build.memory

theorem build_chunk_built {done : Nat} {start build : Build} (room : done < kChunkCount)
    (built : ChunksBuilt start done build) :
    ChunksBuilt start (done + 1) (buildChunk build done) := by
  have image := store_chunk_image_changes build.memory done room
  obtain ⟨edited, first, last⟩ := store_chunk_image_fields build.memory done room
  have nodes := nodes_built done (done * kNodesPerChunk)
    ⟨storeChunkImage build.memory done,
      fnvBytes build.hash (BitVec.ofNat 64 kNodesPerChunk) 8, build.seed⟩
    room built.seed kNodesPerChunk (Nat.le_refl _)
  rw [← buildChunk.eq_1 build done] at nodes
  have own : ChangesOnly (InChunk done) build.memory (buildChunk build done).memory :=
    (image.mono fun _ => .inl).trans (nodes.changes.mono fun _ => .inr)
  constructor
  · rw [nodes.seed, Nat.succ_mul]
  · rw [nodes.hash, hashChunks, List.range_succ, List.foldl_append, ← hashChunks, ← built.hash,
      List.foldl_cons, List.foldl_nil]
  · intro c bound
    rcases Nat.lt_succ_iff_lt_or_eq.mp bound with before | same
    · apply chunk_holds_congr (by omega) _ (built.chunks c before)
      intro address inRange within
      exact own address inRange
        (chunks_disjoint c done address (by omega) room (by omega) within)
    · subst same
      -- The nodes lie behind the image, which they leave as it was stored.
      have kept : ∀ field, field + 8 ≤ 32 →
          load64 (buildChunk build c).memory (chunkAddress c + field) =
            load64 (storeChunkImage build.memory c) (chunkAddress c + field) := by
        intro field fits
        unfold kChunkCount at room
        have chunkPlace := chunk_address_eq c
        have nodesPlace := nodes_address_eq c
        apply nodes.changes.load64 _ (by omega)
        intro address lower upper inside
        unfold InNodes at inside
        omega
      exact ⟨(kept 0 (by decide)).trans edited, (kept 8 (by decide)).trans first,
        (kept 16 (by decide)).trans last, nodes.nodes⟩
  · exact built.changes.trans (own.mono fun address =>
      in_chunk_in_chunks done address room)

theorem chunks_built (start : Build) (seed : start.seed = kDataSeed) (done : Nat)
    (room : done ≤ kChunkCount) :
    ChunksBuilt start done ((List.range done).foldl buildChunk start) := by
  induction done with
  | zero =>
      constructor
      · rw [Nat.zero_mul]
        exact seed
      · rw [hashChunks, List.range_zero, List.foldl_nil, List.foldl_nil]
      · exact fun c bound => absurd bound (Nat.not_lt_zero c)
      · exact changes_only_refl _ _
  | succ done ih =>
      rw [List.range_succ, List.foldl_append, List.foldl_cons, List.foldl_nil]
      exact build_chunk_built room (ih (Nat.le_of_succ_le room))

/-! ### The fills and the headers -/

theorem shadow_map_eq : kShadowMapBase = 0xc007fff0000 ∧ kShadowMapBytes = 0x1b0000 := by
  decide

theorem arena_end_eq : kArenaBase + kArenaBytes = 0x600000d00000 := by decide

theorem clear_owned_zero (memory : Memory 64) (address : Nat) (owned : Owned address) :
    clearOwned memory (pointer address) = 0 := by
  obtain ⟨shadowBase, shadowBytes⟩ := shadow_map_eq
  have arenaEnd := arena_end_eq
  unfold Owned at owned
  rw [shadowBase, shadowBytes] at owned
  rw [clearOwned, shadowBase, shadowBytes]
  rcases owned with inArena | inShadow
  · have base : kArenaBase = 0x600000000000 := rfl
    refine (fill_elsewhere _ _ _ _ _ (by decide) (by omega) (by omega)).trans ?_
    exact fill_region _ _ _ _ _ (by omega) inArena.1 inArena.2
  · exact fill_region _ _ _ _ _ (by omega) inShadow.1 inShadow.2

theorem clear_owned_changes (memory : Memory 64) :
    ChangesOnly Owned memory (clearOwned memory) := by
  obtain ⟨shadowBase, shadowBytes⟩ := shadow_map_eq
  intro address bound outside
  have arenaEnd := arena_end_eq
  unfold Owned at outside
  rw [clearOwned]
  refine (fill_elsewhere _ _ _ _ _ (by rw [shadowBase, shadowBytes]; decide) bound
    (by omega)).trans ?_
  exact fill_elsewhere _ _ _ _ _ (by decide) bound (by omega)

/-- After the fills nothing is left of what the owned regions held. -/
theorem clear_owned_forgets (left right : Memory 64)
    (agree : ∀ address : Word, ¬Owned address.toNat → left address = right address) :
    clearOwned left = clearOwned right := by
  funext address
  have numbered : pointer address.toNat = address := by
    rw [pointer, BitVec.ofNat_toNat, BitVec.setWidth_eq]
  by_cases owned : Owned address.toNat
  · rw [← numbered, clear_owned_zero left _ owned, clear_owned_zero right _ owned]
  · have before := agree address owned
    rw [← numbered] at before ⊢
    rw [clear_owned_changes left _ address.isLt owned,
      clear_owned_changes right _ address.isLt owned, before]

def InHeaders (address : Nat) : Prop :=
  0x600000000058 ≤ address ∧ address < 0x600000000060 ∨
    0x600000c00100 ≤ address ∧ address < 0x600000c00118

theorem vector_address_eq : kVectorAddress = 0x600000c00100 := rfl

theorem size_field_eq : kArenaBase + kFakeStackSizeLogOffset = 0x600000000058 := rfl

theorem store_headers_changes (memory : Memory 64) :
    ChangesOnly InHeaders memory (storeHeaders memory) := by
  have step : ∀ (memory : Memory 64) (address : Nat) (value : Word),
      address = 0x600000000058 ∨ 0x600000c00100 ≤ address ∧ address ≤ 0x600000c00110 →
      ChangesOnly InHeaders memory (store64 memory address value) := by
    intro memory address value place
    apply (store64_changes_only memory address value (by omega)).mono
    intro byte bounds
    unfold InHeaders
    omega
  exact (((step _ _ _ (.inl rfl)).trans (step _ _ _ (.inr (by decide)))).trans
    (step _ _ _ (.inr (by decide)))).trans (step _ _ _ (.inr (by decide)))

theorem store_headers_fields (memory : Memory 64) :
    load64 (storeHeaders memory) (kArenaBase + kFakeStackSizeLogOffset) = kStackSizeLog ∧
      load64 (storeHeaders memory) kVectorAddress = pointer kChunksAddress ∧
      load64 (storeHeaders memory) (kVectorAddress + 8) =
        pointer (kChunksAddress + kChunkCount * chunkImageSize) := by
  refine ⟨?_, ?_, ?_⟩
  · rw [storeHeaders, load64_store64_elsewhere, load64_store64_elsewhere,
      load64_store64_elsewhere, load64_store64] <;> decide
  · rw [storeHeaders, load64_store64_elsewhere, load64_store64_elsewhere,
      load64_store64] <;> decide
  · rw [storeHeaders, load64_store64_elsewhere, load64_store64] <;> decide

/-- What every run of `build_arena` leaves, whatever was there before. -/
structure ArenaBuilt (before : ArenaState) (built : ArenaState) (hash : Word) : Prop where
  sizeField : load64 built.memory (kArenaBase + kFakeStackSizeLogOffset) = kStackSizeLog
  first : load64 built.memory kVectorAddress = pointer kChunksAddress
  last : load64 built.memory (kVectorAddress + 8) =
    pointer (kChunksAddress + kChunkCount * chunkImageSize)
  chunks : ∀ c, c < kChunkCount → ChunkHolds built.memory c
  shadow : ∀ address, kShadowMapBase ≤ address → address < kShadowMapBase + kShadowMapBytes →
    built.memory (pointer address) = 0
  hash : hash = hashChunks (fnvBytes kFnvBasis (BitVec.ofNat 64 kChunkCount) 8) kChunkCount
  changes : ChangesOnly Owned before.memory built.memory
  slot : built.threadArea = before.threadArea.set 0 (pointer kArenaBase)

theorem in_headers_owned (address : Nat) (inside : InHeaders address) :
    Owned address ∧ ¬InChunks address ∧ 0x600000000000 ≤ address := by
  have arenaEnd := arena_end_eq
  have base : kArenaBase = 0x600000000000 := rfl
  have chunks : kChunksAddress = 0x600000c01000 := rfl
  unfold InHeaders at inside
  unfold Owned InChunks
  omega

theorem in_chunks_owned (address : Nat) (inside : InChunks address) :
    Owned address ∧ 0x600000000000 ≤ address := by
  have base : kArenaBase = 0x600000000000 := rfl
  have chunks : kChunksAddress = 0x600000c01000 := rfl
  unfold InChunks at inside
  unfold Owned
  omega

theorem arena_built (state : ArenaState) :
    ArenaBuilt state (buildArena state).1 (buildArena state).2 := by
  obtain ⟨sizeField, first, last⟩ := store_headers_fields (clearOwned state.memory)
  have headers := store_headers_changes (clearOwned state.memory)
  have built := chunks_built ⟨storeHeaders (clearOwned state.memory),
    fnvBytes kFnvBasis (BitVec.ofNat 64 kChunkCount) 8, kDataSeed⟩ rfl kChunkCount (Nat.le_refl _)
  simp only [buildArena]
  generalize (List.range kChunkCount).foldl buildChunk _ = build at built ⊢
  have kept : ∀ address, (∀ byte, address ≤ byte → byte < address + 8 → InHeaders byte) →
      address + 8 ≤ 2 ^ 64 →
      load64 build.memory address =
        load64 (storeHeaders (clearOwned state.memory)) address := by
    intro address inHeaders fits
    apply built.changes.load64 address fits
    intro byte lower upper
    exact (in_headers_owned byte (inHeaders byte lower upper)).2.1
  constructor
  · rw [kept _ (by unfold InHeaders; rw [size_field_eq]; omega) (by decide), sizeField]
  · rw [kept _ (by unfold InHeaders; rw [vector_address_eq]; omega) (by decide), first]
  · rw [kept _ (by unfold InHeaders; rw [vector_address_eq]; omega) (by decide), last]
  · exact built.chunks
  · intro address lower upper
    have low : address < 0x600000000000 := by
      obtain ⟨shadowBase, shadowBytes⟩ := shadow_map_eq
      omega
    have notChunk : ¬InChunks address := fun inside =>
      absurd (in_chunks_owned address inside).2 (by omega)
    have notHeader : ¬InHeaders address := fun inside =>
      absurd (in_headers_owned address inside).2.2 (by omega)
    have cleared := clear_owned_zero state.memory address (.inr ⟨lower, upper⟩)
    have beforeLoop := (headers address (by omega) notHeader).trans cleared
    exact (built.changes address (by omega) notChunk).trans beforeLoop
  · exact built.hash
  · exact ((clear_owned_changes state.memory).trans
      (headers.mono fun address inside => (in_headers_owned address inside).1)).trans
      (built.changes.mono fun address inside => (in_chunks_owned address inside).1)
  · rfl

end SdcProbe.Arena
