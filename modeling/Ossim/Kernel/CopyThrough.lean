import Ossim.Memory.PoolRange
import Ossim.Kernel.DeviceCalls
import Ossim.Kernel.VirtualBytes

namespace Ossim
namespace Kernel

open Memory CopyLoop

/-!
# Through the kernel and back

A copy from user space to a kernel region and from there to user space moves
bytes between two regions of a process.  Each iteration of the two loops may
bring a page in and another one out, which moves contents between frames and
slots but changes no virtual byte.  The loops are therefore followed on virtual
bytes and on the cells of the kernel pool, where iteration `i` has done nothing
but fill the first `i` cells of its target.
-/

/-- A machine with so many frames and slots in which paging is in order. -/
structure Os.InOrder (frames slots : Nat) (os : Os) : Prop where
  fewFrames : frames ≤ 8192
  fewSlots : slots ≤ 2 ^ 21
  mramStorage : frames * 256 ≤ os.mram.storageSz
  mswpStorage : slots * 256 ≤ os.activeMswp.storageSz
  mramRandom : os.mram.rdmflg = true
  mswpRandom : os.activeMswp.rdmflg = true
  /-- No frame or slot is held twice, by pages or by a free list. -/
  exclusive : os.places.Exclusive
  inRange : os.places.Within (Place.InRange frames slots)
  unmixed : ∀ proc, (os.mm proc).Unmixed
  fifoExact : ∀ proc, (os.mm proc).FifoExact

theorem Os.InOrder.wellFormed {frames slots : Nat} {os : Os} (order : os.InOrder frames slots)
    {caller : ProcRef} (resolves : schedFindProcByPid os (os.pid caller) = some caller) :
    os.WellFormed frames slots caller :=
  ⟨order.fewFrames, order.fewSlots, order.mramStorage, order.mswpStorage, order.mramRandom,
    order.mswpRandom, order.exclusive, order.inRange, order.unmixed, order.fifoExact, resolves⟩

theorem Os.InOrder.setSched {frames slots : Nat} {os : Os} (order : os.InOrder frames slots)
    (sched : Sched) : (os.setSched sched).InOrder frames slots :=
  ⟨order.fewFrames, order.fewSlots, order.mramStorage, order.mswpStorage, order.mramRandom,
    order.mswpRandom, order.exclusive, order.inRange, order.unmixed, order.fifoExact⟩

theorem Os.WellFormed.inOrder {frames slots : Nat} {os : Os} {caller : ProcRef}
    (wellFormed : os.WellFormed frames slots caller) : os.InOrder frames slots :=
  ⟨wellFormed.fewFrames, wellFormed.fewSlots, wellFormed.mramStorage, wellFormed.mswpStorage,
    wellFormed.mramRandom, wellFormed.mswpRandom, wellFormed.exclusive, wellFormed.inRange,
    wellFormed.unmixed, wellFormed.fifoExact⟩

/-! ## The cells of a request -/

/-- The request lies inside the region. -/
def RequestFits (rg : VmRgStruct) (offset size : BitVec 32) : Prop :=
  offset.toNat + size.toNat ≤ rg.length

theorem cellAddr_inj {rg : VmRgStruct} {offset : BitVec 32} {i j : Nat} (left : i < 2 ^ 32)
    (right : j < 2 ^ 32) (same : cellAddr rg offset i = cellAddr rg offset j) : i = j := by
  rw [cellAddr, cellAddr, BitVec.add_right_inj] at same
  have numbers := congrArg BitVec.toNat same
  rw [BitVec.toNat_ofNat, BitVec.toNat_ofNat] at numbers
  omega

/-- The cell of the pool storage behind an address of the pool. -/
theorem kmemOffset_of_inside {kaddr : Addr} (lower : KMEM_VBASE.toNat ≤ kaddr.toNat)
    (upper : kaddr.toNat < KMEM_VBASE.toNat + KMEM_POOL_SIZE) :
    kmemOffset kaddr = (kaddr.toNat - KMEM_VBASE.toNat : Nat) := by
  have limit : KMEM_POOL_SIZE = 65536 := rfl
  have size := kaddr.isLt
  have distance : (kaddr - KMEM_VBASE).toNat = kaddr.toNat - KMEM_VBASE.toNat := by
    rw [BitVec.toNat_sub]
    omega
  rw [kmemOffset, asInt_of_small _ (by omega), distance]

section Cells

variable {rg : VmRgStruct} {offset size : BitVec 32} {i j : Nat}

theorem cellAddr_mem (fits : RequestFits rg offset size) (within : i < size.toNat) :
    (cellAddr rg offset i).toNat ∈ rg.bytes := by
  have bound := size.isLt
  unfold RequestFits at fits
  exact (cellAddr_mem_iff rg offset (by omega)).mpr (by omega)

theorem cellAddr_low (low : rg.rgEnd.toNat ≤ 2 ^ 22) (fits : RequestFits rg offset size)
    (within : i < size.toNat) : (cellAddr rg offset i).toNat < 2 ^ 22 := by
  have inside := (cellAddr_mem fits within).2
  omega

/-- Two iterations use two cells of the pool. -/
theorem kmemOffset_cellAddr_inj (pool : rg.InPool)
    (fits : RequestFits rg offset size) (left : i < size.toNat) (right : j < size.toNat)
    (same : kmemOffset (cellAddr rg offset i) = kmemOffset (cellAddr rg offset j)) : i = j := by
  have bound := size.isLt
  have lower := pool.lower
  have upper := pool.upper
  have first := cellAddr_mem fits left
  have second := cellAddr_mem fits right
  have lowerFirst := first.1
  have upperFirst := first.2
  have lowerSecond := second.1
  have upperSecond := second.2
  rw [kmemOffset_of_inside (by omega) (by omega), kmemOffset_of_inside (by omega) (by omega)]
    at same
  have addresses : cellAddr rg offset i = cellAddr rg offset j :=
    BitVec.eq_of_toNat_eq (by omega)
  exact cellAddr_inj (by omega) (by omega) addresses

end Cells

/-! ## The two loops -/

/-- The state after so many iterations of a copy from user space: no virtual
byte has changed, and the first cells of the target hold the bytes of the
source. -/
structure FilledKernel (frames slots : Nat) (os : Os) (caller : ProcRef) (src dst : VmRgStruct)
    (offset : BitVec 32) (count : Nat) (state : Os) : Prop where
  order : state.WellFormed frames slots caller
  tables : SameTables os state
  user : ∀ proc addr, state.byteAt proc addr = os.byteAt proc addr
  copied : ∀ i < count, os.byteAt caller (cellAddr src offset i) =
    some (state.kmem.storage (kmemOffset (cellAddr dst offset i)))
  kernel : ∀ cell, (∀ i < count, cell ≠ kmemOffset (cellAddr dst offset i)) →
    state.kmem.storage cell = os.kmem.storage cell

/-- The state after so many iterations of a copy to user space: the kernel pool
has not changed, the first bytes of the target are the cells of the source, and
no other virtual byte has changed. -/
structure FilledUser (frames slots : Nat) (os : Os) (caller : ProcRef) (src dst : VmRgStruct)
    (offset : BitVec 32) (count : Nat) (state : Os) : Prop where
  order : state.WellFormed frames slots caller
  kmem : state.kmem = os.kmem
  copied : ∀ i < count, state.byteAt caller (cellAddr dst offset i) =
    some (os.kmem.storage (kmemOffset (cellAddr src offset i)))
  user : ∀ proc addr, (∀ i < count, (proc, addr) ≠ (caller, cellAddr dst offset i)) →
    state.byteAt proc addr = os.byteAt proc addr

section Loops

variable {frames slots : Nat} {os : Os} {caller : ProcRef} {src dst : VmRgStruct}
variable {offset size : BitVec 32}

/-- A store to the pool that is not refused. -/
theorem storeKernel_stored {i : Nat} {b : Byte} {fetched after : Os}
    (stored : storeKernel dst offset i b fetched = (0, after)) :
    ∃ kmem, after = fetched.setKmem kmem ∧ kmem.storage =
      Function.update fetched.kmem.storage (kmemOffset (cellAddr dst offset i)) b := by
  rcases storeKernel_cases dst offset i b fetched with ⟨refused, _⟩ | ⟨_, done⟩
  · rw [stored] at refused
    exact absurd rfl refused
  · rw [stored] at done
    exact ⟨_, done, rfl⟩

theorem FilledKernel.iteration (low : src.rgEnd.toNat ≤ 2 ^ 22) (pool : dst.InPool)
    (fitsSrc : RequestFits src offset size) (fitsDst : RequestFits dst offset size) {i : Nat}
    (within : i < size.toNat) {b : Byte} {before fetched after : Os}
    (filled : FilledKernel frames slots os caller src dst offset i before)
    (read : fetchUser caller src offset i before = (0, b, fetched))
    (written : storeKernel dst offset i b fetched = (0, after)) :
    FilledKernel frames slots os caller src dst offset (i + 1) after := by
  rw [fetchUser] at read
  have address := cellAddr_low low fitsSrc within
  have reading := pgGetval_transparent filled.order address
  have tables := sameTables_pgGetval before (cellAddr src offset i) caller
  have kmem := kmem_pgGetval before (cellAddr src offset i) caller
  rw [read] at reading tables kmem
  rcases reading with ⟨order, _, bytes, value⟩
  dsimp only at order bytes value tables kmem
  rcases storeKernel_stored written with ⟨filledPool, same, storage⟩
  have stored : after.kmem.storage =
      Function.update before.kmem.storage (kmemOffset (cellAddr dst offset i)) b := by
    rw [same, ← kmem]
    exact storage
  have pages : ∀ proc addr, after.byteAt proc addr = fetched.byteAt proc addr := by
    intro proc addr
    rw [same]
    rfl
  have kept : SameTables fetched after := by
    rw [same]
    exact fun proc => rfl
  refine ⟨?_, (filled.tables.trans tables).trans kept, ?_, ?_, ?_⟩
  · rw [same]
    exact wellFormed_setKmem order filledPool
  · intro proc addr
    exact ((pages proc addr).trans (bytes proc addr)).trans (filled.user proc addr)
  · intro j earlier
    rw [stored]
    by_cases last : j = i
    · rw [last, Function.update_self, ← filled.user, value rfl]
    · have different : kmemOffset (cellAddr dst offset j) ≠ kmemOffset (cellAddr dst offset i) :=
        fun same => last (kmemOffset_cellAddr_inj pool fitsDst (by omega) within same)
      rw [Function.update_of_ne different]
      exact filled.copied j (by omega)
  · intro cell avoided
    rw [stored, Function.update_of_ne (avoided i (Nat.lt_succ_self i))]
    exact filled.kernel cell fun j earlier => avoided j (Nat.lt_succ_of_lt earlier)

theorem FilledUser.iteration (low : dst.rgEnd.toNat ≤ 2 ^ 22)
    (fitsDst : RequestFits dst offset size) {i : Nat} (within : i < size.toNat) {b : Byte}
    {before fetched after : Os}
    (filled : FilledUser frames slots os caller src dst offset i before)
    (read : fetchKernel src offset i before = (0, b, fetched))
    (written : storeUser caller dst offset i b fetched = (0, after)) :
    FilledUser frames slots os caller src dst offset (i + 1) after := by
  have cell : fetched = before ∧ b = os.kmem.storage (kmemOffset (cellAddr src offset i)) := by
    unfold fetchKernel kmemReadByte at read
    rw [filled.kmem] at read
    cases inside : kmemAddrIsKernel (cellAddr src offset i) with
    | false =>
        rw [inside] at read
        exact absurd (congrArg Prod.fst read) (show (-1 : Int) ≠ 0 by decide)
    | true =>
        rw [inside] at read
        cases read
        exact ⟨rfl, rfl⟩
  rcases cell with ⟨same, value⟩
  subst same value
  rw [storeUser] at written
  have address := cellAddr_low low fitsDst within
  have writing := pgSetval_transparent filled.order address
    (os.kmem.storage (kmemOffset (cellAddr src offset i)))
  have kmem := kmem_pgSetval fetched (cellAddr dst offset i)
    (os.kmem.storage (kmemOffset (cellAddr src offset i))) caller
  rw [written] at writing kmem
  rcases writing with ⟨order, _, bytes⟩
  dsimp only at order bytes kmem
  rcases bytes rfl with ⟨here, elsewhere⟩
  refine ⟨order, kmem.trans filled.kmem, ?_, ?_⟩
  · intro j earlier
    by_cases last : j = i
    · rw [last]
      exact here
    · have bound := size.isLt
      have different : (caller, cellAddr dst offset j) ≠ (caller, cellAddr dst offset i) := by
        intro same
        exact last (cellAddr_inj (by omega) (by omega) (congrArg Prod.snd same))
      rw [elsewhere caller _ different]
      exact filled.copied j (by omega)
  · intro proc addr avoided
    rw [elsewhere proc addr (avoided i (Nat.lt_succ_self i))]
    exact filled.user proc addr fun j earlier => avoided j (Nat.lt_succ_of_lt earlier)

end Loops

/-! ## The two calls -/

/-- The region that an id names for a process. -/
def Os.region (os : Os) (caller : ProcRef) (rgid : BitVec 32) : Option VmRgStruct :=
  (getSymrgByid rgid.toInt).map fun slot => (os.mm caller).symrgtbl slot

theorem region_of_sameTables {os after : Os} (tables : SameTables os after) (caller : ProcRef)
    (rgid : BitVec 32) : after.region caller rgid = os.region caller rgid := by
  rw [Os.region, tables, Os.region]

/-- The regions of a copy are the ones that its ids name. -/
theorem copyRegions_named {os : Os} {caller : ProcRef} {user kernel : BitVec 32}
    {urg krg : VmRgStruct} (checked : copyRegions os caller user kernel = some (urg, krg)) :
    (os.procs caller).isSome = true ∧ os.region caller user = some urg ∧
      os.region caller kernel = some krg := by
  unfold copyRegions at checked
  unfold Os.region Os.mm
  cases live : os.procs caller with
  | none =>
      rw [live] at checked
      cases checked
  | some pcb =>
      cases userSlot : getSymrgByid user.toInt with
      | none =>
          rw [live, userSlot] at checked
          cases checked
      | some first =>
          cases kernelSlot : getSymrgByid kernel.toInt with
          | none =>
              rw [live, userSlot, kernelSlot] at checked
              cases checked
          | some second =>
              rw [live, userSlot, kernelSlot] at checked
              dsimp only at checked
              split at checked
              · cases checked
              · split at checked
                · cases checked
                · split at checked
                  · cases checked
                  · cases checked
                    exact ⟨rfl, rfl, rfl⟩

/-- A copy that reports success has run its loop to the end. -/
theorem libkmemCopyFromUser_ran {os : Os} {caller : ProcRef}
    {source destination offset size : BitVec 32} {src dst : VmRgStruct}
    (srcNamed : os.region caller source = some src)
    (dstNamed : os.region caller destination = some dst)
    (done : (libkmemCopyFromUser os caller source destination offset size).1 = 0) :
    (os.procs caller).isSome = true ∧
      libkmemCopyFromUser os caller source destination offset size =
        copy (fetchUser caller src offset) (storeKernel dst offset) size.toNat 0 os := by
  unfold libkmemCopyFromUser at done ⊢
  cases checked : copyRegions os caller source destination with
  | none =>
      rw [checked] at done
      exact absurd done (show (-1 : Int) ≠ 0 by decide)
  | some regions =>
      rcases regions with ⟨urg, krg⟩
      rcases copyRegions_named checked with ⟨live, user, kernel⟩
      rw [srcNamed] at user
      rw [dstNamed] at kernel
      cases user
      cases kernel
      exact ⟨live, copyFromUserLoop_eq caller src dst offset size.toNat 0 os⟩

theorem libkmemCopyToUser_ran {os : Os} {caller : ProcRef}
    {source destination offset size : BitVec 32} {src dst : VmRgStruct}
    (srcNamed : os.region caller source = some src)
    (dstNamed : os.region caller destination = some dst)
    (done : (libkmemCopyToUser os caller source destination offset size).1 = 0) :
    libkmemCopyToUser os caller source destination offset size =
      copy (fetchKernel src offset) (storeUser caller dst offset) size.toNat 0 os := by
  unfold libkmemCopyToUser at done ⊢
  cases checked : copyRegions os caller destination source with
  | none =>
      rw [checked] at done
      exact absurd done (show (-1 : Int) ≠ 0 by decide)
  | some regions =>
      rcases regions with ⟨urg, krg⟩
      rcases copyRegions_named checked with ⟨_, user, kernel⟩
      rw [dstNamed] at user
      rw [srcNamed] at kernel
      cases user
      cases kernel
      exact copyToUserLoop_eq caller src dst offset size.toNat 0 os

/-- What a copy into the kernel and back does: the request of `there` holds the
bytes that the request of `here` held, no other virtual byte of any process has
changed, and neither has a cell of the kernel pool outside the request. -/
structure CopiedThrough (os after : Os) (caller : ProcRef) (here there kernel : VmRgStruct)
    (offset size : BitVec 32) : Prop where
  copied : ∀ i < size.toNat, ∃ b, os.byteAt caller (cellAddr here offset i) = some b ∧
    after.byteAt caller (cellAddr there offset i) = some b
  user : ∀ proc addr, (∀ i < size.toNat, (proc, addr) ≠ (caller, cellAddr there offset i)) →
    after.byteAt proc addr = os.byteAt proc addr
  pool : ∀ cell, (∀ i < size.toNat, cell ≠ kmemOffset (cellAddr kernel offset i)) →
    after.kmem.storage cell = os.kmem.storage cell

/-- The three regions of a copy into the kernel and back, and the request. -/
structure ThroughRequest (os : Os) (caller : ProcRef) (u v k : BitVec 32)
    (here there kernel : VmRgStruct) (offset size : BitVec 32) : Prop where
  hereNamed : os.region caller u = some here
  thereNamed : os.region caller v = some there
  kernelNamed : os.region caller k = some kernel
  hereLow : here.rgEnd.toNat ≤ 2 ^ 22
  thereLow : there.rgEnd.toNat ≤ 2 ^ 22
  inPool : kernel.InPool
  hereFits : RequestFits here offset size
  thereFits : RequestFits there offset size
  kernelFits : RequestFits kernel offset size

section Calls

variable {frames slots : Nat} {os : Os} {caller : ProcRef} {u v k offset size : BitVec 32}
variable {here there kernel : VmRgStruct}

theorem copiedThrough_of_wellFormed (order : os.WellFormed frames slots caller)
    (request : ThroughRequest os caller u v k here there kernel offset size)
    (out : (libkmemCopyFromUser os caller u k offset size).1 = 0)
    (back : (libkmemCopyToUser (libkmemCopyFromUser os caller u k offset size).2 caller k v
      offset size).1 = 0) :
    CopiedThrough os (libkmemCopyToUser (libkmemCopyFromUser os caller u k offset size).2 caller k v
      offset size).2 caller here there kernel offset size := by
  have first := (libkmemCopyFromUser_ran request.hereNamed request.kernelNamed out).2
  have middle : FilledKernel frames slots os caller here kernel offset size.toNat
      (libkmemCopyFromUser os caller u k offset size).2 := by
    rw [first] at out ⊢
    have ended := copy_establishes (FilledKernel frames slots os caller here kernel offset)
      (fun i b before fetched after _ within filled => filled.iteration request.hereLow
        request.inPool request.hereFits request.kernelFits (by omega))
      ⟨order, fun _ => rfl, fun _ _ => rfl, fun i impossible => absurd impossible (Nat.not_lt_zero i),
        fun _ _ => rfl⟩ out
    rw [Nat.zero_add] at ended
    exact ended
  generalize (libkmemCopyFromUser os caller u k offset size).2 = mid at middle back ⊢
  have second := libkmemCopyToUser_ran
    ((region_of_sameTables middle.tables caller k).trans request.kernelNamed)
    ((region_of_sameTables middle.tables caller v).trans request.thereNamed) back
  have finished : FilledUser frames slots mid caller kernel there offset size.toNat
      (libkmemCopyToUser mid caller k v offset size).2 := by
    rw [second] at back ⊢
    have ended := copy_establishes (FilledUser frames slots mid caller kernel there offset)
      (fun i b before fetched after _ within filled => filled.iteration request.thereLow
        request.thereFits (by omega))
      ⟨middle.order, rfl, fun i impossible => absurd impossible (Nat.not_lt_zero i),
        fun _ _ _ => rfl⟩ back
    rw [Nat.zero_add] at ended
    exact ended
  refine ⟨fun i within => ?_, fun proc addr avoided => ?_, fun cell avoided => ?_⟩
  · exact ⟨_, middle.copied i within, finished.copied i within⟩
  · exact (finished.user proc addr avoided).trans (middle.user proc addr)
  · rw [finished.kmem]
    exact middle.kernel cell avoided

/-- The running list on which the caller alone is found. -/
def aloneOnList (os : Os) (caller : ProcRef) : Sched := { os.sched with runningList := [caller] }

theorem find_aloneOnList (live : (os.procs caller).isSome = true) :
    schedFindProcByPid (os.setSched (aloneOnList os caller)) (os.pid caller) = some caller := by
  rcases Option.isSome_iff_exists.mp live with ⟨pcb, found⟩
  have pid : os.pid caller = pcb.pid := by
    rw [Os.pid, found]
  have block : (os.setSched (aloneOnList os caller)).procs caller = some pcb := found
  rw [schedFindProcByPid, pid]
  apply List.find?_cons_of_pos
  rw [block]
  exact beq_self_eq_true pcb.pid

/-- A request without bytes. -/
private theorem copiedThrough_empty (nothing : size.toNat = 0) :
    CopiedThrough os os caller here there kernel offset size := by
  refine ⟨fun i within => ?_, fun _ _ _ => rfl, fun _ _ => rfl⟩
  omega

/-- In every state in which paging is in order, a copy from a user region to a
kernel region and from there to a user region, both of them successful, moves
the bytes of the request and changes nothing else.  The two user regions may be
equal, disjoint, or overlap. -/
theorem copy_through_kernel (frames slots : Nat) (os : Os) (caller : ProcRef)
    (order : os.InOrder frames slots) (u v k offset size : BitVec 32)
    (here there kernel : VmRgStruct)
    (request : ThroughRequest os caller u v k here there kernel offset size)
    (out : (libkmemCopyFromUser os caller u k offset size).1 = 0)
    (back : (libkmemCopyToUser (libkmemCopyFromUser os caller u k offset size).2 caller k v
      offset size).1 = 0) :
    CopiedThrough os (libkmemCopyToUser (libkmemCopyFromUser os caller u k offset size).2 caller k v
      offset size).2 caller here there kernel offset size := by
  rcases libkmemCopyFromUser_ran request.hereNamed request.kernelNamed out with ⟨live, ran⟩
  by_cases resolves : os.Resolves caller
  · -- which block is found does not matter, so let it be the caller
    let sched := aloneOnList os caller
    have found := find_aloneOnList live
    have alike : FoundAlike os caller sched := by
      rw [FoundAlike, found, resolves]
      rfl
    have relisted : (os.setSched sched).WellFormed frames slots caller :=
      (order.setSched sched).wellFormed found
    have frame : MemoryFrame caller os (libkmemCopyFromUser os caller u k offset size).2 := by
      rw [ran, ← copyFromUserLoop_eq]
      exact frame_copyFromUserLoop caller here kernel offset size.toNat 0 os
    have copying := libkmemCopyFromUser_relisted alike u k offset size
    have returning := libkmemCopyToUser_relisted (alike.frame frame) k v offset size
    have through := @copiedThrough_of_wellFormed frames slots (os.setSched sched) caller u v k
      offset size here there kernel relisted ⟨request.hereNamed, request.thereNamed,
        request.kernelNamed, request.hereLow, request.thereLow, request.inPool, request.hereFits,
        request.thereFits, request.kernelFits⟩
    rw [copying] at through
    dsimp only at through
    rw [returning] at through
    have moved := through out back
    exact ⟨moved.copied, moved.user, moved.pool⟩
  · -- no access succeeds, so there is nothing to copy
    have nothing : size.toNat = 0 := by
      by_contra positive
      rcases Nat.exists_eq_succ_of_ne_zero positive with ⟨remaining, count⟩
      have refused := pgGetval_unresolved resolves (cellAddr here offset 0)
      rw [ran, count, copy, fetchUser] at out
      generalize pgGetval os (cellAddr here offset 0) caller = read at refused out
      dsimp only at out
      rw [if_pos refused] at out
      exact absurd out (show (-1 : Int) ≠ 0 by decide)
    rw [ran, nothing, copy] at back ⊢
    have returned := libkmemCopyToUser_ran request.kernelNamed request.thereNamed back
    rw [returned, nothing, copy]
    exact copiedThrough_empty nothing

end Calls

/-- A process with two user regions of 300 bytes around a kernel region. -/
def threeRegions : Os :=
  (Transition.exec kernelStep NoRawSyscall (boot 2048 0 nullHeads)
    [.load [⟨.ALLOC, 300, 0, 0, 0⟩, ⟨.KMALLOC, 300, 1, 0, 0⟩, ⟨.ALLOC, 300, 2, 0, 0⟩,
      ⟨.WRITE, 7, 0, 256, 0⟩] 0, .getProc, .run 1, .run 1, .run 1, .run 1]).get (by decide +kernel)

/-- Four bytes across a page boundary. -/
theorem copy_through_kernel_four :
    CopiedThrough threeRegions
      (libkmemCopyToUser (libkmemCopyFromUser threeRegions 1 0 1 254 4).2 1 1 2 254 4).2 1
      ⟨0, 300, .user⟩ ⟨512, 812, .user⟩ ⟨KMEM_VBASE, KMEM_VBASE + 300, .kernel⟩ 254 4 := by
  have reached : ReachableWhere NoRawSyscall 2048 0 threeRegions :=
    ⟨_, _, Transition.runWhere_of_exec (Option.some_get _).symm⟩
  have order : threeRegions.InOrder (frameCount 2048) (frameCount 0) :=
    (reached.wellFormed (by decide) (by decide) (show (threeRegions.procs 1).isSome = true by
      decide +kernel) (by decide +kernel)).inOrder
  refine copy_through_kernel (frameCount 2048) (frameCount 0) threeRegions 1 order 0 2 1 254 4 _ _ _
    ⟨by decide +kernel, by decide +kernel, by decide +kernel, by decide, by decide,
      ⟨by decide, by decide, by decide⟩, ?_, ?_, ?_⟩ (by decide +kernel) (by decide +kernel)
  · unfold RequestFits
    decide
  · unfold RequestFits
    decide
  · unfold RequestFits
    decide

end Kernel
end Ossim
