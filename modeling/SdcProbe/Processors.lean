import SdcProbe.CNumeral
import SdcProbe.Report
import SdcProbe.SetBits

/-!
# The processors of the machine

`sdc_enumerate_cpus`, `sdc_pin_to_cpu` and `sdc_verify_pin` of `platform.cpp`, for both
systems. What the system calls answer is a parameter. A list of processors numbers each
of them once, in increasing order, and a pin is confirmed for one of them at most.
-/

namespace SdcProbe.Processors

open CNumeral Report SetBits

set_option autoImplicit false

/-- `cpu_set_t` with its `CPU_SETSIZE` bits. -/
abbrev CpuSet := BitVec 1024

/-- What Linux answers. -/
structure LinuxAnswers where
  /-- The set `sched_getaffinity` fills in, if it succeeds. -/
  affinity : Option CpuSet
  /-- `sysconf(_SC_NPROCESSORS_ONLN)` -/
  online : Int
  online_fits : online ≤ 2 ^ 32

/-- What Windows answers. A group has 64 processors at most. -/
structure WindowsAnswers where
  /-- `GetActiveProcessorGroupCount()` -/
  groupCount : Nat
  /-- The mask of `GetProcessAffinityMask`, if it succeeds. -/
  processMask : Option (BitVec 64)
  /-- `GetActiveProcessorCount` -/
  activeCount : Nat → Nat
  word : groupCount < 2 ^ 16
  group_size : ∀ group, activeCount group ≤ 64

inductive SystemAnswers where
  | linux (answers : LinuxAnswers)
  | windows (answers : WindowsAnswers)

/-- The loop over the bits of a mask. -/
def maskCpus {width : Nat} (mask : BitVec width) : List CpuInfo :=
  ((List.range width).filter fun cpu => mask.getLsbD cpu).map fun cpu => ⟨cpu, 0, cpu⟩

/-- The loop over the processors that are online. -/
def onlineCpus (online : Int) : List CpuInfo :=
  (List.range online.toNat).map fun cpu => ⟨cpu % 2 ^ 32, 0, cpu % 2 ^ 32⟩

/-- The two loops over the groups, from a value of `global_index` on. -/
def groupCpus (activeCount : Nat → Nat) (globalIndex : Nat) : List Nat → List CpuInfo
  | [] => []
  | group :: rest =>
      ((List.range (activeCount group)).map fun inGroup =>
          ⟨(globalIndex + inGroup) % 2 ^ 32, group, inGroup⟩) ++
        groupCpus activeCount (globalIndex + activeCount group) rest

/-- The mask the list is made from, where there is one. -/
def LinuxAnswers.mask (answers : LinuxAnswers) : Option CpuSet :=
  answers.affinity.filter fun set => maskCpus set ≠ []

def WindowsAnswers.mask (answers : WindowsAnswers) : Option (BitVec 64) :=
  if answers.groupCount ≤ 1 then answers.processMask.filter (· ≠ 0) else none

def sdcEnumerateCpus : SystemAnswers → List CpuInfo
  | .linux answers =>
      match answers.mask with
      | some set => maskCpus set
      | none => onlineCpus answers.online
  | .windows answers =>
      match answers.mask with
      | some mask => maskCpus mask
      | none => groupCpus answers.activeCount 0 (List.range answers.groupCount)

/-- The processors the system lets the process use, by group and number. On Linux they are
those of the affinity mask, and where it cannot be read or is empty all that are online. On
Windows they are those of the process mask, and where there is more than one group, or no
mask, all that are active. -/
def Usable : SystemAnswers → Nat → Nat → Prop
  | .linux answers, group, inGroup =>
      group = 0 ∧
        ((∃ set, answers.affinity = some set ∧ set.getLsbD inGroup = true) ∨
          (∀ set, answers.affinity = some set → set = 0) ∧ (inGroup : Int) < answers.online)
  | .windows answers, group, inGroup =>
      (answers.groupCount ≤ 1 ∧ group = 0 ∧
        ∃ mask, answers.processMask = some mask ∧ mask.getLsbD inGroup = true) ∨
      (1 < answers.groupCount ∨ ∀ mask, answers.processMask = some mask → mask = 0) ∧
        group < answers.groupCount ∧ inGroup < answers.activeCount group

/-! ### The list -/

/-- Every processor once, under a number of its own. -/
structure Numbered (cpus : List CpuInfo) : Prop where
  increasing : (cpus.map CpuInfo.index).Pairwise (· < ·)
  apart : (cpus.map fun cpu => (cpu.group, cpu.inGroup)).Nodup

section Masks

variable {width : Nat} (mask : BitVec width)

theorem mem_mask_cpus (cpu : CpuInfo) :
    cpu ∈ maskCpus mask ↔
      mask.getLsbD cpu.inGroup = true ∧ cpu.index = cpu.inGroup ∧ cpu.group = 0 := by
  simp only [maskCpus, List.mem_map, List.mem_filter, List.mem_range]
  constructor
  · intro listed
    obtain ⟨bit, ⟨_, set⟩, same⟩ := listed
    rw [← same]
    exact ⟨set, rfl, rfl⟩
  · intro listed
    obtain ⟨set, index, group⟩ := listed
    refine ⟨cpu.inGroup, ⟨BitVec.lt_of_getLsbD set, set⟩, ?_⟩
    cases cpu
    simp only at index group
    rw [index, group]

theorem mask_cpus_numbered : Numbered (maskCpus mask) := by
  have ordered : ((List.range width).filter fun cpu => mask.getLsbD cpu).Pairwise (· < ·) :=
    List.pairwise_lt_range.filter _
  constructor
  · rw [maskCpus, List.map_map]
    exact ordered.map _ fun _ _ less => less
  · rw [maskCpus, List.map_map]
    apply List.Nodup.map
    · intro bit other same
      exact congrArg Prod.snd same
    · exact ordered.imp Nat.ne_of_lt

end Masks

section Online

theorem online_cpus_eq {online : Int} (fits : online ≤ 2 ^ 32) :
    onlineCpus online = (List.range online.toNat).map fun cpu => ⟨cpu, 0, cpu⟩ := by
  apply List.map_congr_left
  intro cpu inside
  have small : cpu % 2 ^ 32 = cpu := by
    rw [List.mem_range] at inside
    omega
  rw [small]

theorem online_cpus_numbered {online : Int} (fits : online ≤ 2 ^ 32) :
    Numbered (onlineCpus online) := by
  rw [online_cpus_eq fits]
  constructor
  · rw [List.map_map]
    exact List.pairwise_lt_range.map _ fun _ _ less => less
  · rw [List.map_map]
    apply List.Nodup.map
    · intro cpu other same
      exact congrArg Prod.snd same
    · exact List.nodup_range

end Online

section Groups

variable (activeCount : Nat → Nat)

/-- The running numbers count through the groups. -/
theorem group_cpus_indices (globalIndex : Nat) (groups : List Nat) :
    (groupCpus activeCount globalIndex groups).map CpuInfo.index =
      (List.range' globalIndex (groups.map activeCount).sum).map (· % 2 ^ 32) := by
  induction groups generalizing globalIndex with
  | nil => rfl
  | cons group rest ih =>
      rw [groupCpus, List.map_append, ih, List.map_map, List.map_cons, List.sum_cons,
        ← List.range'_append_1, List.map_append]
      apply congrArg (· ++ _)
      rw [List.range'_eq_map_range, List.map_map]
      rfl

theorem mem_group_cpus {globalIndex : Nat} {groups : List Nat} {cpu : CpuInfo}
    (listed : cpu ∈ groupCpus activeCount globalIndex groups) :
    cpu.group ∈ groups ∧ cpu.inGroup < activeCount cpu.group := by
  induction groups generalizing globalIndex with
  | nil => cases listed
  | cons group rest ih =>
      rw [groupCpus, List.mem_append] at listed
      rcases listed with here | later
      · obtain ⟨inGroup, inside, rfl⟩ := List.mem_map.mp here
        exact ⟨List.mem_cons_self, List.mem_range.mp inside⟩
      · have found := ih later
        exact ⟨List.mem_cons_of_mem _ found.1, found.2⟩

theorem exists_group_cpu (globalIndex : Nat) {groups : List Nat} {group inGroup : Nat}
    (known : group ∈ groups) (inside : inGroup < activeCount group) :
    ∃ cpu ∈ groupCpus activeCount globalIndex groups,
      cpu.group = group ∧ cpu.inGroup = inGroup := by
  induction groups generalizing globalIndex with
  | nil => cases known
  | cons first rest ih =>
      rw [groupCpus]
      rcases List.mem_cons.mp known with rfl | later
      · refine ⟨_, List.mem_append_left _ (List.mem_map.mpr ⟨inGroup, ?_, rfl⟩), rfl, rfl⟩
        exact List.mem_range.mpr inside
      · obtain ⟨cpu, listed, found⟩ := ih (globalIndex + activeCount first) later
        exact ⟨cpu, List.mem_append_right _ listed, found⟩

theorem group_cpus_apart (globalIndex : Nat) {groups : List Nat} (distinct : groups.Nodup) :
    ((groupCpus activeCount globalIndex groups).map fun cpu =>
      (cpu.group, cpu.inGroup)).Nodup := by
  induction groups generalizing globalIndex with
  | nil => exact List.nodup_nil
  | cons group rest ih =>
      rw [List.nodup_cons] at distinct
      rw [groupCpus, List.map_append, List.map_map]
      apply List.Nodup.append
      · apply List.Nodup.map
        · intro inGroup other same
          exact congrArg Prod.snd same
        · exact List.nodup_range
      · exact ih _ distinct.2
      · intro place here later
        obtain ⟨inGroup, _, rfl⟩ := List.mem_map.mp here
        obtain ⟨cpu, listed, same⟩ := List.mem_map.mp later
        have known := (mem_group_cpus activeCount listed).1
        have group : cpu.group = group := congrArg Prod.fst same
        rw [group] at known
        exact distinct.1 known

theorem sum_active_le {bound : Nat} (size : ∀ group, activeCount group ≤ bound)
    (groups : List Nat) : (groups.map activeCount).sum ≤ groups.length * bound := by
  induction groups with
  | nil => exact Nat.zero_le _
  | cons group rest ih =>
      have first := size group
      rw [List.map_cons, List.sum_cons, List.length_cons, Nat.succ_mul]
      omega

theorem narrowed_range {total : Nat} (fits : total ≤ 2 ^ 32) :
    (List.range' 0 total).map (· % 2 ^ 32) = List.range' 0 total := by
  have same : (List.range' 0 total).map (· % 2 ^ 32) = (List.range' 0 total).map id := by
    apply List.map_congr_left
    intro number inside
    rw [List.mem_range'_1] at inside
    exact Nat.mod_eq_of_lt (by omega)
  rw [same, List.map_id]

theorem group_cpus_numbered (answers : WindowsAnswers) :
    Numbered (groupCpus answers.activeCount 0 (List.range answers.groupCount)) := by
  constructor
  · have total := sum_active_le answers.activeCount answers.group_size
      (List.range answers.groupCount)
    have few := answers.word
    rw [List.length_range] at total
    rw [group_cpus_indices]
    rw [narrowed_range (by omega)]
    exact List.pairwise_lt_range'
  · exact group_cpus_apart answers.activeCount 0 List.nodup_range

end Groups

theorem mask_usable_iff {width : Nat} (mask : BitVec width) (group inGroup : Nat) :
    (group = 0 ∧ mask.getLsbD inGroup = true) ↔
      ∃ cpu ∈ maskCpus mask, cpu.group = group ∧ cpu.inGroup = inGroup := by
  constructor
  · intro usable
    obtain ⟨rfl, set⟩ := usable
    exact ⟨⟨inGroup, 0, inGroup⟩, (mem_mask_cpus mask _).mpr ⟨set, rfl, rfl⟩, rfl, rfl⟩
  · intro listed
    obtain ⟨cpu, inside, rfl, rfl⟩ := listed
    obtain ⟨set, _, first⟩ := (mem_mask_cpus mask cpu).mp inside
    exact ⟨first, set⟩

theorem online_usable_iff {online : Int} (fits : online ≤ 2 ^ 32) (group inGroup : Nat) :
    (group = 0 ∧ (inGroup : Int) < online) ↔
      ∃ cpu ∈ onlineCpus online, cpu.group = group ∧ cpu.inGroup = inGroup := by
  rw [online_cpus_eq fits]
  constructor
  · intro usable
    obtain ⟨rfl, inside⟩ := usable
    have listed : inGroup ∈ List.range online.toNat := by
      rw [List.mem_range, Int.lt_toNat]
      exact inside
    exact ⟨_, List.mem_map_of_mem listed, rfl, rfl⟩
  · intro listed
    obtain ⟨cpu, inside, rfl, rfl⟩ := listed
    obtain ⟨number, bound, rfl⟩ := List.mem_map.mp inside
    rw [List.mem_range, Int.lt_toNat] at bound
    exact ⟨rfl, bound⟩

theorem groups_usable_iff (activeCount : Nat → Nat) (groupCount group inGroup : Nat) :
    (group < groupCount ∧ inGroup < activeCount group) ↔
      ∃ cpu ∈ groupCpus activeCount 0 (List.range groupCount),
        cpu.group = group ∧ cpu.inGroup = inGroup := by
  constructor
  · exact fun usable =>
      exists_group_cpu activeCount 0 (List.mem_range.mpr usable.1) usable.2
  · intro listed
    obtain ⟨cpu, inside, rfl, rfl⟩ := listed
    have found := mem_group_cpus activeCount inside
    exact ⟨List.mem_range.mp found.1, found.2⟩

theorem enumerated_numbered (answers : SystemAnswers) : Numbered (sdcEnumerateCpus answers) := by
  unfold sdcEnumerateCpus
  cases answers with
  | linux answers =>
      dsimp only
      cases answers.mask with
      | some set => exact mask_cpus_numbered set
      | none => exact online_cpus_numbered answers.online_fits
  | windows answers =>
      dsimp only
      cases answers.mask with
      | some mask => exact mask_cpus_numbered mask
      | none => exact group_cpus_numbered answers

theorem mask_cpus_nil_iff {width : Nat} (mask : BitVec width) : maskCpus mask = [] ↔ mask = 0 := by
  rw [List.eq_nil_iff_forall_not_mem]
  constructor
  · intro unlisted
    apply BitVec.eq_of_getLsbD_eq
    intro bit _
    rw [BitVec.ofNat_eq_ofNat, BitVec.getLsbD_zero, ← Bool.not_eq_true]
    intro set
    exact unlisted ⟨bit, 0, bit⟩ ((mem_mask_cpus mask _).mpr ⟨set, rfl, rfl⟩)
  · intro zero cpu listed
    have set := ((mem_mask_cpus mask cpu).mp listed).1
    rw [zero, BitVec.ofNat_eq_ofNat, BitVec.getLsbD_zero] at set
    cases set

/-- A mask without a bit is as good as none. -/
theorem linux_mask_cases (answers : LinuxAnswers) :
    (∃ set, answers.mask = some set ∧ answers.affinity = some set ∧ set ≠ 0) ∨
      answers.mask = none ∧ ∀ set, answers.affinity = some set → set = 0 := by
  unfold LinuxAnswers.mask
  cases answers.affinity with
  | none => exact .inr ⟨rfl, fun set known => by cases known⟩
  | some set =>
      by_cases zero : set = 0
      · have empty := (mask_cpus_nil_iff set).mpr zero
        refine .inr ⟨Option.filter_some_neg (by simp [empty]), ?_⟩
        intro other same
        rw [← Option.some.inj same]
        exact zero
      · have given := mt (mask_cpus_nil_iff set).mp zero
        exact .inl ⟨set, Option.filter_some_pos (by simp [given]), rfl, zero⟩

theorem windows_mask_cases (answers : WindowsAnswers) :
    (∃ mask, answers.mask = some mask ∧ answers.groupCount ≤ 1 ∧
      answers.processMask = some mask ∧ mask ≠ 0) ∨
      answers.mask = none ∧
        (1 < answers.groupCount ∨ ∀ mask, answers.processMask = some mask → mask = 0) := by
  unfold WindowsAnswers.mask
  split_ifs with single
  · cases answers.processMask with
    | none => exact .inr ⟨rfl, .inr fun mask known => by cases known⟩
    | some mask =>
        by_cases zero : mask = 0
        · refine .inr ⟨Option.filter_some_neg (decide_eq_false (not_not.mpr zero)), .inr ?_⟩
          intro other same
          rw [← Option.some.inj same]
          exact zero
        · exact .inl ⟨mask, Option.filter_some_pos (decide_eq_true zero), single, rfl, zero⟩
  · exact .inr ⟨rfl, .inl (Nat.lt_of_not_le single)⟩

theorem linux_usable_iff (answers : LinuxAnswers) (group inGroup : Nat) :
    Usable (.linux answers) group inGroup ↔
      ∃ cpu ∈ sdcEnumerateCpus (.linux answers), cpu.group = group ∧ cpu.inGroup = inGroup := by
  unfold sdcEnumerateCpus Usable
  dsimp only
  rcases linux_mask_cases answers with ⟨set, masked, known, given⟩ | ⟨masked, empty⟩
  · rw [masked, ← mask_usable_iff set group inGroup]
    apply and_congr_right
    intro _
    constructor
    · rintro (⟨other, same, bit⟩ | ⟨zero, _⟩)
      · rw [known, Option.some.injEq] at same
        rwa [same]
      · exact absurd (zero set known) given
    · exact fun bit => .inl ⟨set, known, bit⟩
  · rw [masked, ← online_usable_iff answers.online_fits group inGroup]
    apply and_congr_right
    intro _
    constructor
    · rintro (⟨set, known, bit⟩ | ⟨_, inside⟩)
      · rw [empty set known, BitVec.ofNat_eq_ofNat, BitVec.getLsbD_zero] at bit
        cases bit
      · exact inside
    · exact fun inside => .inr ⟨empty, inside⟩

theorem windows_usable_iff (answers : WindowsAnswers) (group inGroup : Nat) :
    Usable (.windows answers) group inGroup ↔
      ∃ cpu ∈ sdcEnumerateCpus (.windows answers),
        cpu.group = group ∧ cpu.inGroup = inGroup := by
  unfold sdcEnumerateCpus Usable
  dsimp only
  rcases windows_mask_cases answers with ⟨mask, masked, single, known, given⟩ | ⟨masked, unmasked⟩
  · rw [masked, ← mask_usable_iff mask group inGroup]
    constructor
    · rintro (⟨_, first, other, same, bit⟩ | ⟨many | zero, _⟩)
      · rw [known, Option.some.injEq] at same
        rw [same]
        exact ⟨first, bit⟩
      · exact absurd single (Nat.not_le_of_lt many)
      · exact absurd (zero mask known) given
    · exact fun usable => .inl ⟨single, usable.1, mask, known, usable.2⟩
  · rw [masked, ← groups_usable_iff answers.activeCount answers.groupCount group inGroup]
    constructor
    · rintro (⟨single, _, mask, known, bit⟩ | ⟨_, inside⟩)
      · rcases unmasked with many | zero
        · exact absurd single (Nat.not_le_of_lt many)
        · rw [zero mask known, BitVec.ofNat_eq_ofNat, BitVec.getLsbD_zero] at bit
          cases bit
      · exact inside
    · exact fun inside => .inr ⟨unmasked, inside⟩

theorem usable_iff (answers : SystemAnswers) (group inGroup : Nat) :
    Usable answers group inGroup ↔
      ∃ cpu ∈ sdcEnumerateCpus answers, cpu.group = group ∧ cpu.inGroup = inGroup := by
  cases answers with
  | linux answers => exact linux_usable_iff answers group inGroup
  | windows answers => exact windows_usable_iff answers group inGroup

/-- The list numbers exactly the processors the process can use, each of them once and
the numbers going up. -/
theorem enumeration_is_exact (answers : SystemAnswers) :
    Numbered (sdcEnumerateCpus answers) ∧
      ∀ group inGroup, Usable answers group inGroup ↔
        ∃ cpu ∈ sdcEnumerateCpus answers, cpu.group = group ∧ cpu.inGroup = inGroup :=
  ⟨enumerated_numbered answers, usable_iff answers⟩

/-! ### Pins -/

/-- The set `sdc_pin_to_cpu` asks for: `CPU_ZERO`, then `CPU_SET`. -/
def pinSet (cpu : CpuInfo) : CpuSet := BitVec.twoPow 1024 cpu.inGroup

/-- `GROUP_AFFINITY` -/
structure GroupAffinity where
  mask : BitVec 64
  group : Nat

def pinAffinity (cpu : CpuInfo) : GroupAffinity := ⟨BitVec.twoPow 64 cpu.inGroup, cpu.group⟩

/-- Where the thread is, as far as the system says. -/
inductive Whereabouts where
  /-- The set `sched_getaffinity` fills in, if it succeeds. -/
  | linux (affinity : Option CpuSet)
  /-- `GetCurrentProcessorNumberEx` -/
  | windows (group number : Nat)

def affinityFailed : Text := "sched_getaffinity failed".toList

def wrongMask (cpu : CpuInfo) (set : CpuSet) : Text :=
  "requested cpu ".toList ++ stdToString cpu.inGroup ++ ", but affinity mask has ".toList ++
    stdToString (setBits set).card ++ " cpu(s)".toList

def elsewhere (cpu : CpuInfo) (group number : Nat) : Text :=
  "requested group ".toList ++ stdToString cpu.group ++ " cpu ".toList ++
    stdToString cpu.inGroup ++ ", but running on group ".toList ++ stdToString group ++
    " cpu ".toList ++ stdToString number

def sdcVerifyPin (now : Whereabouts) (cpu : CpuInfo) : Text :=
  match now with
  | .linux none => affinityFailed
  | .linux (some set) =>
      if (setBits set).card ≠ 1 ∨ set.getLsbD cpu.inGroup = false then
        snprintf 160 (wrongMask cpu set)
      else []
  | .windows group number =>
      if group ≠ cpu.group ∨ number ≠ cpu.inGroup then snprintf 160 (elsewhere cpu group number)
      else []

/-- On Linux, the thread may run on this processor and on no other. On Windows, it is the one
the thread was running on when it was asked. -/
def OnlyOn (now : Whereabouts) (cpu : CpuInfo) : Prop :=
  match now with
  | .linux affinity => affinity = some (pinSet cpu) ∧ cpu.inGroup < 1024
  | .windows group number => group = cpu.group ∧ number = cpu.inGroup

/-- The system has kept the thread to what `sdc_pin_to_cpu` asked for. -/
def Kept (now : Whereabouts) (cpu : CpuInfo) : Prop :=
  match now with
  | .linux affinity => affinity = some (pinSet cpu)
  | .windows group number =>
      group = (pinAffinity cpu).group ∧ (pinAffinity cpu).mask.getLsbD number = true

theorem snprintf_nil_iff (text : Text) : snprintf 160 text = [] ↔ text = [] := by
  rw [snprintf, List.take_eq_nil_iff]
  simp

theorem affinity_failed_given : affinityFailed ≠ [] := by decide

theorem wrong_mask_given (cpu : CpuInfo) (set : CpuSet) : wrongMask cpu set ≠ [] := by
  have given := (std_to_string_digits (setBits set).card).1
  intro empty
  unfold wrongMask at empty
  have before := List.append_eq_nil_iff.mp empty
  exact given (List.append_eq_nil_iff.mp before.1).2

theorem elsewhere_given (cpu : CpuInfo) (group number : Nat) :
    elsewhere cpu group number ≠ [] := by
  have given := (std_to_string_digits number).1
  intro empty
  unfold elsewhere at empty
  exact given (List.append_eq_nil_iff.mp empty).2

/-- A set with one bit, and that bit. -/
theorem one_bit_iff {width : Nat} (set : BitVec width) (bit : Nat) :
    ((setBits set).card = 1 ∧ set.getLsbD bit = true) ↔
      set = BitVec.twoPow width bit ∧ bit < width := by
  constructor
  · intro single
    obtain ⟨one, there⟩ := single
    obtain ⟨only, inside, rfl⟩ := (card_eq_one_iff set).mp one
    rw [← mem_set_bits, set_bits_two_pow only inside, Finset.mem_singleton] at there
    rw [there]
    exact ⟨rfl, inside⟩
  · intro power
    obtain ⟨rfl, inside⟩ := power
    constructor
    · exact (card_eq_one_iff _).mpr ⟨bit, inside, rfl⟩
    · rw [← mem_set_bits, set_bits_two_pow bit inside]
      exact Finset.mem_singleton_self bit

theorem kept_only_on {now : Whereabouts} {cpu : CpuInfo} (inside : cpu.inGroup < 1024)
    (kept : Kept now cpu) : OnlyOn now cpu := by
  cases now with
  | linux affinity => exact ⟨kept, inside⟩
  | windows group number =>
      refine ⟨kept.1, ?_⟩
      have bit : (BitVec.twoPow 64 cpu.inGroup).getLsbD number = true := kept.2
      rw [BitVec.getLsbD_twoPow, Bool.and_eq_true, decide_eq_true_iff, decide_eq_true_iff] at bit
      exact bit.2.symm

/-- A pin is confirmed for the processor the thread is on. -/
theorem verify_pin_iff (now : Whereabouts) (cpu : CpuInfo) :
    sdcVerifyPin now cpu = [] ↔ OnlyOn now cpu := by
  cases now with
  | linux affinity =>
      cases affinity with
      | none =>
          constructor
          · exact fun empty => absurd empty affinity_failed_given
          · intro only
            cases only.1
      | some set =>
          have bit := one_bit_iff set cpu.inGroup
          unfold sdcVerifyPin OnlyOn
          dsimp only
          rw [Option.some.injEq, pinSet, ← bit]
          split_ifs with wrong
          · rw [snprintf_nil_iff]
            constructor
            · exact fun empty => absurd empty (wrong_mask_given cpu set)
            · intro right
              rcases wrong with many | unset
              · exact absurd right.1 many
              · rw [right.2] at unset
                cases unset
          · rw [not_or, not_not, Bool.not_eq_false] at wrong
            exact iff_of_true rfl wrong
  | windows group number =>
      unfold sdcVerifyPin OnlyOn
      dsimp only
      split_ifs with wrong
      · rw [snprintf_nil_iff]
        constructor
        · exact fun empty => absurd empty (elsewhere_given cpu group number)
        · intro right
          rcases wrong with other | other
          · exact absurd right.1 other
          · exact absurd right.2 other
      · rw [not_or, not_not, not_not] at wrong
        exact iff_of_true rfl wrong

/-- The system a list is made on and the one that says where the thread is. -/
def SameSystem : SystemAnswers → Whereabouts → Prop
  | .linux _, .linux _ => True
  | .windows _, .windows _ _ => True
  | _, _ => False

theorem linux_group_zero (answers : LinuxAnswers) {cpu : CpuInfo}
    (listed : cpu ∈ sdcEnumerateCpus (.linux answers)) : cpu.group = 0 := by
  unfold sdcEnumerateCpus at listed
  dsimp only at listed
  cases masked : answers.mask with
  | some set =>
      rw [masked] at listed
      exact ((mem_mask_cpus set cpu).mp listed).2.2
  | none =>
      rw [masked] at listed
      obtain ⟨number, _, rfl⟩ := List.mem_map.mp listed
      rfl

theorem two_pow_injective {width left right : Nat} (inside : left < width)
    (same : BitVec.twoPow width left = BitVec.twoPow width right) : left = right := by
  have bit : (BitVec.twoPow width right).getLsbD left = true := by
    rw [← same, ← mem_set_bits, set_bits_two_pow left inside]
    exact Finset.mem_singleton_self left
  rw [BitVec.getLsbD_twoPow, Bool.and_eq_true, decide_eq_true_iff, decide_eq_true_iff] at bit
  exact bit.2.symm

theorem only_on_one {now : Whereabouts} {cpu other : CpuInfo} (here : OnlyOn now cpu)
    (there : OnlyOn now other) :
    cpu.inGroup = other.inGroup ∧
      ((∃ group number, now = .windows group number) → cpu.group = other.group) := by
  cases now with
  | linux affinity =>
      unfold OnlyOn at here there
      dsimp only at here there
      have same := here.1.symm.trans there.1
      constructor
      · exact two_pow_injective here.2 (Option.some.inj same)
      · intro windows
        obtain ⟨_, _, impossible⟩ := windows
        cases impossible
  | windows group number =>
      unfold OnlyOn at here there
      dsimp only at here there
      exact ⟨here.2.symm.trans there.2, fun _ => here.1.symm.trans there.1⟩

/-- Of the processors of a list one pin is confirmed at most, and it is confirmed when
that is the only one the thread may run on, or for Windows the one it is running on. A pin
that the system keeps is confirmed. -/
theorem confirmed_pin_names_one_processor (answers : SystemAnswers) (now : Whereabouts)
    (system : SameSystem answers now) :
    (∀ cpu ∈ sdcEnumerateCpus answers, sdcVerifyPin now cpu = [] ↔ OnlyOn now cpu) ∧
      (∀ cpu ∈ sdcEnumerateCpus answers, ∀ other ∈ sdcEnumerateCpus answers,
        sdcVerifyPin now cpu = [] → sdcVerifyPin now other = [] → cpu = other) ∧
      ∀ cpu ∈ sdcEnumerateCpus answers, cpu.inGroup < 1024 → Kept now cpu →
        sdcVerifyPin now cpu = [] := by
  refine ⟨fun cpu _ => verify_pin_iff now cpu, ?_, ?_⟩
  · intro cpu listed other also here there
    rw [verify_pin_iff] at here there
    have one := only_on_one here there
    apply List.inj_on_of_nodup_map (enumerated_numbered answers).apart listed also
    rw [one.1, Prod.mk.injEq]
    refine ⟨?_, rfl⟩
    cases answers with
    | linux answers => rw [linux_group_zero answers listed, linux_group_zero answers also]
    | windows answers =>
        cases now with
        | linux affinity => cases system
        | windows group number => exact one.2 ⟨group, number, rfl⟩
  · intro cpu _ inside kept
    exact (verify_pin_iff now cpu).mpr (kept_only_on inside kept)

/-- Two groups of two processors, and the thread on the second one of the first group. -/
def twoGroups : WindowsAnswers where
  groupCount := 2
  processMask := none
  activeCount _ := 2
  word := by decide
  group_size _ := by decide

theorem confirmed_pin_names_one_processor_sample :
    sdcEnumerateCpus (.windows twoGroups) = [⟨0, 0, 0⟩, ⟨1, 0, 1⟩, ⟨2, 1, 0⟩, ⟨3, 1, 1⟩] ∧
      ∀ cpu ∈ sdcEnumerateCpus (.windows twoGroups),
        sdcVerifyPin (.windows 0 1) cpu = [] ↔ OnlyOn (.windows 0 1) cpu :=
  ⟨rfl, (confirmed_pin_names_one_processor (.windows twoGroups) (.windows 0 1) trivial).1⟩

end SdcProbe.Processors
