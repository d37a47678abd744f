import SdcProbe.Arena

/-!
# What the payload finds in the arena

The vector image read back through its pointers, and the hash of the reproducer
(`repro.cpp`) over what was read. The reproducer feeds byte buffers to a callable;
here that is a function from a state and a buffer to the next state.
-/

namespace SdcProbe.ArenaContents

open Fnv1a ByteMemory Arena

set_option autoImplicit false

structure Chunk where
  editedAtS : Word := 0
  nodes : List (BitVec 16)

section Emit

variable {State : Type} (emit : State → List Byte → State)

def emitU64 (state : State) (value : Word) : State := emit state (toBytes 8 value)

def emitI16 (state : State) (value : BitVec 16) : State := emit state (toBytes 2 value)

def emitState (chunks : List Chunk) (state : State) : State :=
  chunks.foldl (fun state chunk => chunk.nodes.foldl (emitI16 emit)
    (emitU64 emit state (BitVec.ofNat 64 chunk.nodes.length)))
    (emitU64 emit state (BitVec.ofNat 64 chunks.length))

end Emit

/-- The lambda of `hash`. -/
def hashEmit (value : Word) (bytes : List Byte) : Word :=
  bytes.foldl (fun value byte => (value ^^^ byte.setWidth 64) * kFnvPrime) value

def hash (chunks : List Chunk) : Word := emitState hashEmit chunks kFnvBasis

/-- `begin`, and how many elements lie between `begin` and `end`. -/
def readVector (memory : Memory 64) (image : Word) (elementSize : Nat) : Word × Nat :=
  let first := loadWord 64 8 memory image
  let last := loadWord 64 8 memory (image + 8)
  (first, (last - first).toNat / elementSize)

/-- `std::vector<std::int16_t>` -/
def readNodes (memory : Memory 64) (image : Word) : List (BitVec 16) :=
  let (first, count) := readVector memory image 2
  (List.range count).map fun n => loadWord 16 2 memory (first + BitVec.ofNat 64 (2 * n))

def readChunk (memory : Memory 64) (address : Word) : Chunk :=
  ⟨loadWord 64 8 memory address, readNodes memory (address + 8)⟩

/-- `std::vector<Chunk>` -/
def readChunks (memory : Memory 64) (image : Word) : List Chunk :=
  let (first, count) := readVector memory image chunkImageSize
  (List.range count).map fun c =>
    readChunk memory (first + BitVec.ofNat 64 (c * chunkImageSize))

/-- The data the reproducer generates: one run of the generator through all
chunks. -/
def generated : List Chunk :=
  (List.range kChunkCount).map fun c =>
    { nodes := (List.range kNodesPerChunk).map fun n => node (c * kNodesPerChunk + n) }

/-! ### One hash, written twice -/

theorem fnv_bytes_eq (hash value : Word) (count : Nat) :
    fnvBytes hash value count = hashEmit hash (toBytes count value) := by
  have low : ∀ i : Nat, (value >>> (8 * i)) &&& 0xff =
      ((value >>> (8 * i)).setWidth 8).setWidth 64 := by
    intro i
    apply BitVec.eq_of_getLsbD_eq
    intro bit inside
    have mask : (0xff : Word) = BitVec.setWidth 64 (BitVec.allOnes 8) := by decide
    rw [mask, BitVec.getLsbD_and, BitVec.getLsbD_setWidth, BitVec.getLsbD_allOnes,
      BitVec.getLsbD_setWidth, BitVec.getLsbD_setWidth]
    simp [inside, Bool.and_comm]
  rw [fnvBytes, hashEmit, toBytes, List.foldl_map]
  simp only [low]

/-- Widening a node does not change its two bytes. -/
theorem node_bytes (value : BitVec 16) : toBytes 2 (value.setWidth 64) = toBytes 2 value := by
  apply List.map_congr_left
  intro i member
  have low : i < 2 := List.mem_range.mp member
  apply BitVec.eq_of_getLsbD_eq
  intro bit inside
  simp only [BitVec.getLsbD_setWidth, BitVec.getLsbD_ushiftRight]
  simp [show 8 * i + bit < 64 by omega]

theorem hash_nodes_eq (hash : Word) (first count : Nat) :
    hashNodes hash first count =
      ((List.range count).map fun n => node (first + n)).foldl (emitI16 hashEmit) hash := by
  rw [hashNodes, List.foldl_map]
  simp only [fnv_bytes_eq, node_bytes, emitI16]

theorem hash_generated :
    hash generated =
      hashChunks (fnvBytes kFnvBasis (BitVec.ofNat 64 kChunkCount) 8) kChunkCount := by
  rw [hash, emitState, generated, hashChunks, List.foldl_map, List.length_map, List.length_range,
    fnv_bytes_eq]
  simp only [List.length_map, List.length_range, hash_nodes_eq, fnv_bytes_eq, emitU64]

/-! ### Reading the image -/

theorem pointer_add (base more : Nat) :
    pointer base + BitVec.ofNat 64 more = pointer (base + more) :=
  (BitVec.ofNat_add base more).symm

theorem read_vector_eq (memory : Memory 64) (image first length elementSize : Nat)
    (bound : first + length < 2 ^ 64) (begins : load64 memory image = pointer first)
    (ends : load64 memory (image + 8) = pointer (first + length)) :
    readVector memory (pointer image) elementSize = (pointer first, length / elementSize) := by
  have next : pointer image + 8 = pointer (image + 8) := pointer_add image 8
  have distance := offset_above first (first + length) (Nat.le_add_right _ _) bound
  rw [Nat.add_sub_cancel_left] at distance
  rw [readVector, next]
  rw [load64] at begins ends
  rw [begins, ends]
  exact congrArg (fun count => (pointer first, count / elementSize)) distance

theorem read_chunk_eq (memory : Memory 64) (c : Nat) (inside : c < kChunkCount)
    (holds : ChunkHolds memory c) :
    readChunk memory (pointer (chunkAddress c)) =
      { nodes := (List.range kNodesPerChunk).map fun n => node (c * kNodesPerChunk + n) } := by
  have place := nodes_address_eq c
  have range : nodesAddress c + kNodesPerChunk * 2 < 2 ^ 64 := by
    unfold kChunkCount at inside
    unfold kNodesPerChunk
    omega
  have vector := read_vector_eq memory (chunkAddress c + 8) (nodesAddress c) (kNodesPerChunk * 2)
    2 range holds.first holds.last
  have next : pointer (chunkAddress c) + 8 = pointer (chunkAddress c + 8) :=
    pointer_add (chunkAddress c) 8
  rw [readChunk, readNodes, next, vector, Nat.mul_div_cancel _ (by decide)]
  rw [Chunk.mk.injEq]
  refine ⟨holds.edited, List.map_congr_left ?_⟩
  intro n member
  rw [pointer_add]
  exact holds.nodes n (List.mem_range.mp member)

theorem read_chunks_eq {before built : ArenaState} {hash : Word}
    (arena : ArenaBuilt before built hash) :
    readChunks built.memory (pointer kVectorAddress) = generated := by
  have vector := read_vector_eq built.memory kVectorAddress kChunksAddress
    (kChunkCount * chunkImageSize) chunkImageSize (by decide) arena.first arena.last
  rw [readChunks, vector, Nat.mul_div_cancel _ (by decide)]
  apply List.map_congr_left
  intro c member
  have inside := List.mem_range.mp member
  rw [pointer_add]
  exact read_chunk_eq built.memory c inside (arena.chunks c inside)

theorem shadow_inside (address : Nat) (lower : kArenaBase ≤ address)
    (upper : address < kArenaBase + kArenaBytes) :
    kShadowMapBase ≤ (address >>> 3) + kShadowOffset ∧
      (address >>> 3) + kShadowOffset < kShadowMapBase + kShadowMapBytes := by
  obtain ⟨shadowBase, shadowBytes⟩ := shadow_map_eq
  have arenaEnd := arena_end_eq
  have base : kArenaBase = 0x600000000000 := rfl
  rw [Nat.shiftRight_eq_div_pow, shadowBase, shadowBytes]
  unfold kShadowOffset
  omega

theorem build_arena_restores :
    (∀ left right : ArenaState,
      (∀ address : Word, ¬Owned address.toNat → left.memory address = right.memory address) →
      (∀ i (inside : i < 16), i ≠ 0 → left.threadArea[i] = right.threadArea[i]) →
      (buildArena left).1 = (buildArena right).1) ∧
    (∀ state : ArenaState,
      let built := (buildArena state).1
      readChunks built.memory (pointer kVectorAddress) = generated ∧
      (∀ address, kArenaBase ≤ address → address < kArenaBase + kArenaBytes →
        built.memory (pointer ((address >>> 3) + kShadowOffset)) = 0) ∧
      load64 built.memory (kArenaBase + kFakeStackSizeLogOffset) = 20 ∧
      built.threadArea[0]? = some (pointer kArenaBase) ∧
      (buildArena state).2 = hash (readChunks built.memory (pointer kVectorAddress))) ∧
    ∀ left right : ArenaState, (buildArena left).2 = (buildArena right).2 := by
  refine ⟨?_, ?_, ?_⟩
  · intro left right agree slots
    have cleared := clear_owned_forgets left.memory right.memory agree
    have area : left.threadArea.set 0 (pointer kArenaBase) =
        right.threadArea.set 0 (pointer kArenaBase) := by
      apply Vector.ext
      intro i inside
      by_cases zero : i = 0
      · subst zero
        rw [Vector.getElem_set_self, Vector.getElem_set_self]
      · rw [Vector.getElem_set_ne _ _ (Ne.symm zero), Vector.getElem_set_ne _ _ (Ne.symm zero)]
        exact slots i inside zero
    rw [buildArena, buildArena, cleared, area]
  · intro state built
    have arena := arena_built state
    refine ⟨read_chunks_eq arena, ?_, arena.sizeField, ?_, ?_⟩
    · intro address lower upper
      obtain ⟨above, below⟩ := shadow_inside address lower upper
      exact arena.shadow _ above below
    · rw [arena.slot]
      exact Vector.getElem?_set_self ..
    · rw [read_chunks_eq arena, hash_generated, arena.hash]
  · intro left right
    rw [(arena_built left).hash, (arena_built right).hash]

end SdcProbe.ArenaContents
