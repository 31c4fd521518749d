import Ossim.Memory.PageTable

namespace Ossim
namespace Memory

/-!
# Physical memory devices

The functions of `mm-memphy.c` and the page copy of `mm64.c`.  A device has a
byte array and a free list of frame numbers; only the free list decides what
is handed out.  The source checks no address against the size of the array,
so an access beyond the allocated storage raises the device's fault flag.

The main program opens every device as random access.  The sequential mode is
kept because both accessors branch on it, but it returns the same bytes and
only moves the cursor.
-/

/-! ## Formatting -/

/-- `MEMPHY_format`: one free frame for each whole page of `maxsz`.  The first
node is made separately and the loop appends the others. -/
def memphyFormat (mp : MemphyStruct) (pagesz : Int) : Int × MemphyStruct :=
  let numfp := Int.tdiv mp.maxsz pagesz
  if numfp ≤ 0 then (-1, mp)
  else
    let appended := (List.range' 1 (numfp.toNat - 1)).map (fun iter => BitVec.ofNat 64 iter)
    (0, { mp with freeFpList := 0 :: appended })

/-- `init_memphy`.  The result of the format is ignored. -/
def initMemphy (maxSize : Addr) (randomflg : Int) : MemphyStruct :=
  let cleared : MemphyStruct :=
    { storage := fun _ => 0
      storageSz := maxSize.toNat
      maxsz := asInt maxSize
      rdmflg := false
      cursor := 0
      freeFpList := []
      fault := false }
  { (memphyFormat cleared 256).2 with rdmflg := decide (randomflg ≠ 0) }

/-! ## Byte access -/

/-- `MEMPHY_mv_csr`: the loop takes one step for each unit of the offset, but
at most `maxsz` steps. -/
def memphyMvCsr (mp : MemphyStruct) (offset : Addr) : MemphyStruct :=
  let steps := min offset.toNat mp.maxsz.toNat
  { mp with cursor := (List.range steps).foldl (fun cursor _ => (cursor + 1) % mp.maxsz) 0 }

/-- Record an access to one storage cell. -/
def MemphyStruct.touch (mp : MemphyStruct) (addr : Addr) : MemphyStruct :=
  { mp with fault := mp.fault || decide (mp.storageSz ≤ addr.toNat) }

def memphySeqRead (mp : MemphyStruct) (addr : Addr) : Int × Byte × MemphyStruct :=
  if mp.rdmflg then (-1, 0, mp)
  else
    let moved := memphyMvCsr mp addr
    (0, moved.storage addr, moved.touch addr)

def memphyRead (mp : MemphyStruct) (addr : Addr) : Int × Byte × MemphyStruct :=
  if mp.rdmflg then (0, mp.storage addr, mp.touch addr)
  else memphySeqRead mp addr

def MemphyStruct.store (mp : MemphyStruct) (addr : Addr) (data : Byte) : MemphyStruct :=
  { mp.touch addr with storage := Function.update mp.storage addr data }

def memphySeqWrite (mp : MemphyStruct) (addr : Addr) (data : Byte) : Int × MemphyStruct :=
  if mp.rdmflg then (-1, mp)
  else (0, (memphyMvCsr mp addr).store addr data)

def memphyWrite (mp : MemphyStruct) (addr : Addr) (data : Byte) : Int × MemphyStruct :=
  if mp.rdmflg then (0, mp.store addr data)
  else memphySeqWrite mp addr data

/-- `MEMPHY_dump` prints every cell below `(addr_t)maxsz`. -/
def memphyDump (mp : MemphyStruct) : MemphyStruct :=
  { mp with fault := mp.fault || decide (mp.storageSz < (ofInt mp.maxsz).toNat) }

/-! ## Free frames -/

def memphyGetFreefp (mp : MemphyStruct) : Option (Addr × MemphyStruct) :=
  match mp.freeFpList with
  | [] => none
  | fpn :: rest => some (fpn, { mp with freeFpList := rest })

def memphyPutFreefp (mp : MemphyStruct) (fpn : Addr) : MemphyStruct :=
  { mp with freeFpList := fpn :: mp.freeFpList }

/-! ## Page copy -/

/-- One iteration of the loop in `__swap_cp_page`. -/
def swapCpCell (srcfpn dstfpn : Addr) (devices : MemphyStruct × MemphyStruct) (cellidx : Nat) :
    MemphyStruct × MemphyStruct :=
  let addrsrc := srcfpn * PAGING_PAGESZ + BitVec.ofNat 64 cellidx
  let addrdst := dstfpn * PAGING_PAGESZ + BitVec.ofNat 64 cellidx
  match memphyRead devices.1 addrsrc with
  | (_, data, mpsrc) => (mpsrc, (memphyWrite devices.2 addrdst data).2)

def swapCpPage (mpsrc : MemphyStruct) (srcfpn : Addr) (mpdst : MemphyStruct) (dstfpn : Addr) :
    MemphyStruct × MemphyStruct :=
  (List.range 256).foldl (swapCpCell srcfpn dstfpn) (mpsrc, mpdst)

/-! ## The frames of a device -/

/-- The number of frames that `MEMPHY_format` makes out of a RAM size. -/
def frameCount (memsz : Addr) : Nat := (Int.tdiv (asInt memsz) 256).toNat

theorem freeFpList_initMemphy (memsz : Addr) (randomflg : Int) :
    (initMemphy memsz randomflg).freeFpList =
      (List.range (frameCount memsz)).map (BitVec.ofNat 64) := by
  unfold initMemphy memphyFormat frameCount
  dsimp only
  by_cases empty : Int.tdiv (asInt memsz) 256 ≤ 0
  · rw [if_pos empty, Int.toNat_eq_zero.mpr empty]
    rfl
  · rw [if_neg empty]
    have split : (Int.tdiv (asInt memsz) 256).toNat =
        ((Int.tdiv (asInt memsz) 256).toNat - 1) + 1 := by omega
    rw [split, Nat.add_sub_cancel, List.range_eq_range', List.range'_succ]
    rfl

theorem frameCount_eq (memsz : Addr) : frameCount memsz = (asInt memsz).toNat / 256 := by
  unfold frameCount
  rcases le_total 0 (asInt memsz) with positive | negative
  · rw [Int.tdiv_eq_ediv_of_nonneg positive]
    omega
  · have reflected : Int.tdiv (asInt memsz) 256 = -Int.tdiv (-asInt memsz) 256 := by
      rw [Int.neg_tdiv, Int.neg_neg]
    have quotient := Int.tdiv_nonneg (Int.neg_nonneg_of_nonpos negative)
      (show (0 : Int) ≤ 256 by decide)
    omega

theorem storageSz_initMemphy (memsz : Addr) (randomflg : Int) :
    (initMemphy memsz randomflg).storageSz = memsz.toNat := by
  unfold initMemphy memphyFormat
  dsimp only
  split <;> rfl

theorem fault_initMemphy (memsz : Addr) (randomflg : Int) :
    (initMemphy memsz randomflg).fault = false := by
  unfold initMemphy memphyFormat
  dsimp only
  split <;> rfl

/-- The frames lie in the storage that is allocated for them. -/
theorem frameCount_storage (memsz : Addr) : frameCount memsz * 256 ≤ memsz.toNat := by
  rw [frameCount_eq, asInt_eq]
  split <;> omega

theorem mem_frames (frames : Nat) (bounded : frames < 2 ^ 64) (fpn : Addr) :
    fpn ∈ (List.range frames).map (BitVec.ofNat 64) ↔ fpn.toNat < frames := by
  rw [List.mem_map]
  constructor
  · rintro ⟨number, member, rfl⟩
    have small := List.mem_range.mp member
    rw [BitVec.toNat_ofNat]
    omega
  · intro small
    exact ⟨fpn.toNat, List.mem_range.mpr small, BitVec.ofNat_toNat _ _⟩

theorem nodup_frames (frames : Nat) (bounded : frames < 2 ^ 64) :
    ((List.range frames).map (BitVec.ofNat 64)).Nodup := by
  refine List.Nodup.map_on ?_ List.nodup_range
  intro left leftMember right rightMember same
  have leftSmall := List.mem_range.mp leftMember
  have rightSmall := List.mem_range.mp rightMember
  have value := congrArg BitVec.toNat same
  rw [BitVec.toNat_ofNat, BitVec.toNat_ofNat] at value
  omega

/-! ## Completely formatted devices -/

/-- The free list names every whole page of the device once, in ascending
order, and every byte of these pages is allocated. -/
structure FormattedCompletely (mp : MemphyStruct) (maxSize : Addr) : Prop where
  frames : mp.freeFpList = (List.range (maxSize.toNat / 256)).map (BitVec.ofNat 64)
  allocated : ∀ fpn ∈ mp.freeFpList, ∀ offset < 256,
    fpn.toNat * 256 + offset < mp.storageSz

/-- The count survives the narrowing of the size to `int` below `2 ^ 31`, and
not at all above, where the size comes out too small or negative. -/
theorem frameCount_eq_iff (maxSize : Addr) :
    frameCount maxSize = maxSize.toNat / 256 ↔ maxSize.toNat < 2 ^ 31 := by
  rw [frameCount_eq]
  constructor
  · intro complete
    have narrow := asInt_bounds maxSize
    omega
  · intro small
    rw [asInt_of_small maxSize small]
    rfl

theorem allocated_initMemphy (maxSize : Addr) (randomflg : Int) :
    ∀ fpn ∈ (initMemphy maxSize randomflg).freeFpList, ∀ offset < 256,
      fpn.toNat * 256 + offset < (initMemphy maxSize randomflg).storageSz := by
  intro fpn member offset small
  have inside := frameCount_storage maxSize
  have size := maxSize.isLt
  rw [freeFpList_initMemphy, mem_frames _ (by omega)] at member
  rw [storageSz_initMemphy]
  omega

/-- `init_memphy` formats a device completely exactly when its size is an
`int`. -/
theorem formattedCompletely_iff (maxSize : Addr) (randomflg : Int) :
    FormattedCompletely (initMemphy maxSize randomflg) maxSize ↔ maxSize.toNat < 2 ^ 31 := by
  constructor
  · intro complete
    have lengths := congrArg List.length complete.frames
    rw [freeFpList_initMemphy, List.length_map, List.length_map, List.length_range,
      List.length_range] at lengths
    exact (frameCount_eq_iff maxSize).mp lengths
  · intro small
    refine ⟨?_, allocated_initMemphy maxSize randomflg⟩
    rw [freeFpList_initMemphy, (frameCount_eq_iff maxSize).mpr small]

/-- The fixed RAM size of the legacy configuration makes a device without a
single frame. -/
theorem formattedCompletely_legacy :
    ¬ (∀ (maxSize : Addr) (randomflg : Int),
        FormattedCompletely (initMemphy maxSize randomflg) maxSize) ∧
      (initMemphy 0x100000000 1).freeFpList = [] := by
  constructor
  · intro always
    have complete := (always 0x100000000 1).frames
    have count : frameCount 0x100000000 = 0 := by decide
    have lengths := congrArg List.length complete
    rw [freeFpList_initMemphy, count, List.length_map, List.length_map, List.length_range,
      List.length_range] at lengths
    exact absurd lengths (by decide)
  · rfl

/-! ## What the operations change -/

/-- Reading leaves the bytes and the free list of a device alone. -/
theorem memphyRead_rest (mp : MemphyStruct) (addr : Addr) :
    (memphyRead mp addr).2.2.storage = mp.storage ∧
      (memphyRead mp addr).2.2.freeFpList = mp.freeFpList := by
  unfold memphyRead memphySeqRead
  split
  · exact ⟨rfl, rfl⟩
  · exact ⟨rfl, rfl⟩

theorem memphyRead_of_random {mp : MemphyStruct} (random : mp.rdmflg = true) (addr : Addr) :
    memphyRead mp addr = (0, mp.storage addr, mp.touch addr) := by
  rw [memphyRead, if_pos random]

theorem memphyWrite_of_random {mp : MemphyStruct} (random : mp.rdmflg = true) (addr : Addr)
    (data : Byte) : memphyWrite mp addr data = (0, mp.store addr data) := by
  rw [memphyWrite, if_pos random]

theorem memphyWrite_freeFpList (mp : MemphyStruct) (addr : Addr) (data : Byte) :
    (memphyWrite mp addr data).2.freeFpList = mp.freeFpList := by
  unfold memphyWrite memphySeqWrite
  split <;> rfl

/-- The devices after a number of copied cells. -/
private theorem foldl_swapCpCell_rest (mpsrc : MemphyStruct) (srcfpn : Addr)
    (mpdst : MemphyStruct) (dstfpn : Addr) (copied : Nat) :
    ((List.range copied).foldl (swapCpCell srcfpn dstfpn) (mpsrc, mpdst)).1.storage =
        mpsrc.storage ∧
      ((List.range copied).foldl (swapCpCell srcfpn dstfpn) (mpsrc, mpdst)).1.freeFpList =
        mpsrc.freeFpList ∧
      ((List.range copied).foldl (swapCpCell srcfpn dstfpn) (mpsrc, mpdst)).2.freeFpList =
        mpdst.freeFpList := by
  induction copied with
  | zero => exact ⟨rfl, rfl, rfl⟩
  | succ copied inductionHypothesis =>
      rw [List.range_succ, List.foldl_append]
      have reading := memphyRead_rest
        ((List.range copied).foldl (swapCpCell srcfpn dstfpn) (mpsrc, mpdst)).1
        (srcfpn * PAGING_PAGESZ + BitVec.ofNat 64 copied)
      exact ⟨reading.1.trans inductionHypothesis.1, reading.2.trans inductionHypothesis.2.1,
        (memphyWrite_freeFpList _ _ _).trans inductionHypothesis.2.2⟩

theorem swapCpPage_rest (mpsrc : MemphyStruct) (srcfpn : Addr) (mpdst : MemphyStruct)
    (dstfpn : Addr) :
    (swapCpPage mpsrc srcfpn mpdst dstfpn).1.storage = mpsrc.storage ∧
      (swapCpPage mpsrc srcfpn mpdst dstfpn).1.freeFpList = mpsrc.freeFpList ∧
      (swapCpPage mpsrc srcfpn mpdst dstfpn).2.freeFpList = mpdst.freeFpList := by
  rw [swapCpPage]
  exact foldl_swapCpCell_rest mpsrc srcfpn mpdst dstfpn 256

/-! ## Accesses inside the storage -/

/-- An access inside the storage leaves no trace. -/
theorem touch_of_inside {mp : MemphyStruct} {addr : Addr} (inside : addr.toNat < mp.storageSz) :
    mp.touch addr = mp := by
  rw [MemphyStruct.touch, decide_eq_false (Nat.not_le.mpr inside), Bool.or_false]

theorem store_of_inside {mp : MemphyStruct} {addr : Addr} (inside : addr.toNat < mp.storageSz)
    (data : Byte) :
    mp.store addr data = { mp with storage := Function.update mp.storage addr data } := by
  rw [MemphyStruct.store, touch_of_inside inside]

/-! ## A page copy inside both devices -/

/-- The device address of one cell of a page. -/
def pageCell (fpn : Addr) (offset : Nat) : Addr := fpn * PAGING_PAGESZ + BitVec.ofNat 64 offset

theorem toNat_pageCell {fpn : Addr} {offset : Nat} (small : fpn.toNat < 2 ^ 32)
    (inside : offset < 256) : (pageCell fpn offset).toNat = fpn.toNat * 256 + offset := by
  have size : PAGING_PAGESZ.toNat = 256 := rfl
  rw [pageCell, BitVec.toNat_add, BitVec.toNat_mul, BitVec.toNat_ofNat, size]
  omega

/-- Different cells have different addresses. -/
theorem pageCell_inj {left right : Addr} {leftOffset rightOffset : Nat}
    (leftSmall : left.toNat < 2 ^ 32) (rightSmall : right.toNat < 2 ^ 32)
    (leftInside : leftOffset < 256) (rightInside : rightOffset < 256)
    (same : pageCell left leftOffset = pageCell right rightOffset) :
    left = right ∧ leftOffset = rightOffset := by
  have address := congrArg BitVec.toNat same
  rw [toNat_pageCell leftSmall leftInside, toNat_pageCell rightSmall rightInside] at address
  exact ⟨BitVec.eq_of_toNat_eq (by omega), by omega⟩

private theorem foldl_swapCpCell_source {mpsrc : MemphyStruct} {srcfpn : Addr}
    (random : mpsrc.rdmflg = true) (mpdst : MemphyStruct) (dstfpn : Addr) (copied : Nat)
    (inside : ∀ offset < copied, (pageCell srcfpn offset).toNat < mpsrc.storageSz) :
    ((List.range copied).foldl (swapCpCell srcfpn dstfpn) (mpsrc, mpdst)).1 = mpsrc := by
  induction copied with
  | zero => rfl
  | succ copied inductionHypothesis =>
      have before := inductionHypothesis fun offset early => inside offset (by omega)
      rw [List.range_succ, List.foldl_append, List.foldl_cons, List.foldl_nil, swapCpCell]
      dsimp only
      rw [before, memphyRead_of_random random]
      exact touch_of_inside (inside copied (Nat.lt_succ_self copied))

/-- The source keeps its state when all cells of the page exist. -/
theorem swapCpPage_source {mpsrc : MemphyStruct} {srcfpn : Addr} (random : mpsrc.rdmflg = true)
    (inside : ∀ offset < 256, (pageCell srcfpn offset).toNat < mpsrc.storageSz)
    (mpdst : MemphyStruct) (dstfpn : Addr) : (swapCpPage mpsrc srcfpn mpdst dstfpn).1 = mpsrc :=
  foldl_swapCpCell_source random mpdst dstfpn 256 inside

/-- The page lies in the storage of the device. -/
structure MemphyStruct.HasPage (mp : MemphyStruct) (fpn : Addr) : Prop where
  small : fpn.toNat < 2 ^ 32
  stored : (fpn.toNat + 1) * 256 ≤ mp.storageSz

theorem MemphyStruct.HasPage.cell_lt {mp : MemphyStruct} {fpn : Addr} (page : mp.HasPage fpn)
    {offset : Nat} (inside : offset < 256) : (pageCell fpn offset).toNat < mp.storageSz := by
  have stored := page.stored
  rw [toNat_pageCell page.small inside]
  omega

/-- The result of copying the first cells of a page between two devices. -/
structure PageCopied (source : MemphyStruct) (srcfpn : Addr) (target : MemphyStruct)
    (dstfpn : Addr) (cells : Nat) (result : MemphyStruct × MemphyStruct) : Prop where
  sourceSame : result.1 = source
  targetShape : ∃ storage, result.2 = { target with storage := storage }
  copied : ∀ offset < cells,
    result.2.storage (pageCell dstfpn offset) = source.storage (pageCell srcfpn offset)
  kept : ∀ addr, (∀ offset < cells, addr ≠ pageCell dstfpn offset) →
    result.2.storage addr = target.storage addr

private theorem foldl_swapCpCell_copied {source target : MemphyStruct} {srcfpn dstfpn : Addr}
    (sourceRandom : source.rdmflg = true) (targetRandom : target.rdmflg = true)
    (sourcePage : source.HasPage srcfpn) (targetPage : target.HasPage dstfpn) (cells : Nat)
    (inside : cells ≤ 256) :
    PageCopied source srcfpn target dstfpn cells
      ((List.range cells).foldl (swapCpCell srcfpn dstfpn) (source, target)) := by
  induction cells with
  | zero =>
      refine ⟨rfl, ⟨target.storage, rfl⟩, fun offset early => ?_, fun _ _ => rfl⟩
      exact absurd early (Nat.not_lt_zero offset)
  | succ cells inductionHypothesis =>
      have before := inductionHypothesis (by omega)
      rw [List.range_succ, List.foldl_append, List.foldl_cons, List.foldl_nil]
      generalize (List.range cells).foldl (swapCpCell srcfpn dstfpn) (source, target) =
        devices at before ⊢
      rcases devices with ⟨src, dst⟩
      rcases before with ⟨same, ⟨storage, shape⟩, copied, kept⟩
      dsimp only at same shape copied kept
      subst same shape
      have page : MemphyStruct.HasPage { target with storage := storage } dstfpn :=
        ⟨targetPage.small, targetPage.stored⟩
      have cell : swapCpCell srcfpn dstfpn (src, { target with storage := storage }) cells =
          (src, { target with
            storage := Function.update storage (pageCell dstfpn cells)
              (src.storage (pageCell srcfpn cells)) }) := by
        rw [swapCpCell]
        dsimp only
        rw [memphyRead_of_random sourceRandom]
        dsimp only
        rw [@memphyWrite_of_random { target with storage := storage } targetRandom,
          ← pageCell, ← pageCell, touch_of_inside (sourcePage.cell_lt (by omega)),
          store_of_inside (page.cell_lt (by omega))]
      rw [cell]
      refine ⟨rfl, ⟨_, rfl⟩, fun offset early => ?_, fun addr outside => ?_⟩
      · by_cases last : offset = cells
        · rw [last]
          exact Function.update_self _ _ _
        · have different : pageCell dstfpn offset ≠ pageCell dstfpn cells := fun equal =>
            last (pageCell_inj targetPage.small targetPage.small (by omega) (by omega) equal).2
          exact (Function.update_of_ne different _ _).trans (copied offset (by omega))
      · exact (Function.update_of_ne (outside cells (Nat.lt_succ_self cells)) _ _).trans
          (kept addr fun offset early => outside offset (by omega))

/-- `__swap_cp_page` copies all cells of a page and touches nothing else. -/
theorem swapCpPage_copied {source target : MemphyStruct} {srcfpn dstfpn : Addr}
    (sourceRandom : source.rdmflg = true) (targetRandom : target.rdmflg = true)
    (sourcePage : source.HasPage srcfpn) (targetPage : target.HasPage dstfpn) :
    PageCopied source srcfpn target dstfpn 256 (swapCpPage source srcfpn target dstfpn) :=
  foldl_swapCpCell_copied sourceRandom targetRandom sourcePage targetPage 256 (le_refl _)

end Memory
end Ossim
