/-
  The flag calls on coherent states. As for events, what they do is written down once on `Data`
  (`Data.setFlag`, `Data.waitFlag`, `Data.delFlag` and so on), and the theorems say that the
  code computes it and keeps the list of nodes in order.
-/
import CoOS.Coh.Flags

namespace CoOS

open Function (update)
open DList KeyOrder

/-! ## The calls on `Data` -/

/-- The tasks of the flag list. -/
def Aside.flagTasks (cfg : Env) (a : Aside) : List Nat := walk a.nextNode cfg.tasks a.headNode

/-- Is `id` no flag? -/
def Aside.badFlag (a : Aside) (id : Nat) : Prop :=
  FLAG_MAX_NUM ≤ id ∨ a.flagActive &&& flagBit id = 0

instance (a : Aside) (id : Nat) : Decidable (a.badFlag id) := inferInstanceAs (Decidable (_ ∨ _))

/-- The flags are set to `rdy`. -/
def Data.setRdy (d : Data) (rdy : BitVec 32) : Data :=
  { d with aside := { d.aside with flagRdy := rdy } }

/-- The flags of `f` that reset themselves are cleared. -/
def Data.consume (d : Data) (f : BitVec 32) : Data :=
  d.setRdy (d.aside.flagRdy &&& ~~~ (f &&& d.aside.resetOpt))

/-- The tasks that `CoSetFlag` releases. -/
def Data.wakes (cfg : Env) (d : Data) (id : Nat) : List Nat :=
  released (d.aside.masks.sat (d.aside.flagRdy ||| flagBit id))
    (d.aside.resetOpt &&& flagBit id != 0) (d.aside.flagTasks cfg)

/-- `CoSetFlag`. -/
def Data.setFlag (cfg : Env) (d : Data) (id : Nat) : Data × StatusType :=
  if d.aside.badFlag id then (d, .E_INVALID_ID)
  else if d.aside.flagRdy &&& flagBit id ≠ 0 then (d, .E_OK)
  else ((d.setRdy (d.aside.flagRdy ||| flagBit id)).springs (d.wakes cfg id), .E_OK)

/-- `CoClearFlag`. -/
def Data.clearFlag (d : Data) (id : Nat) : Data × StatusType :=
  if d.aside.badFlag id then (d, .E_INVALID_ID)
  else (d.setRdy (d.aside.flagRdy &&& ~~~ flagBit id), .E_OK)

/-- `CoAcceptSingleFlag`. -/
def Data.acceptFlag (d : Data) (id : Nat) : Data × StatusType :=
  if d.aside.badFlag id then (d, .E_INVALID_ID)
  else if d.aside.flagRdy &&& flagBit id ≠ 0 then (d.consume (flagBit id), .E_OK)
  else (d, .E_FLAG_NOT_READY)

/-- `CoAcceptMultipleFlags`. -/
def Data.acceptFlags (d : Data) (flags : BitVec 32) (ty : Nat) : Data × BitVec 32 × StatusType :=
  if flags &&& d.aside.flagActive ≠ flags then (d, 0, .E_INVALID_PARAMETER)
  else if CoOS.springs (flags &&& d.aside.flagRdy) flags ty then
    (d.consume (flags &&& d.aside.flagRdy), flags &&& d.aside.flagRdy, .E_OK)
  else (d, 0, .E_FLAG_NOT_READY)

/-- The task `t` blocks, with a timeout of `n` ticks. -/
def Data.flagWait (d : Data) (t : Nat) (flags : BitVec 32) (ty n : Nat) : Data :=
  { d with
    aside := d.aside.flagBlock t flags ty
    waits := fun u => u = t ∨ d.waits u
    timed := fun u => (u = t ∧ n ≠ 0) ∨ d.timed u }

/-- `CoWaitForSingleFlag`, called by `t`. -/
def Data.waitFlag (d : Data) (t id n : Nat) : Data × Option StatusType :=
  if d.aside.badFlag id then (d, some .E_INVALID_ID)
  else if d.aside.flagRdy &&& flagBit id ≠ 0 then (d.consume (flagBit id), some .E_OK)
  else (d.flagWait t (flagBit id) OPT_WAIT_ONE n, none)

/-- `CoWaitForMultipleFlags`, called by `t`. -/
def Data.waitFlags (d : Data) (t : Nat) (flags : BitVec 32) (ty n : Nat) :
    Data × Option (BitVec 32 × StatusType) :=
  if flags &&& d.aside.flagActive ≠ flags then (d, some (0, .E_INVALID_PARAMETER))
  else if CoOS.springs (flags &&& d.aside.flagRdy) flags ty then
    (d.consume (flags &&& d.aside.flagRdy), some (flags &&& d.aside.flagRdy, .E_OK))
  else (d.flagWait t flags ty n, none)

def Data.setPnode (d : Data) (t : Nat) (p : PNode) : Data :=
  { d with aside := { d.aside with pnode := update d.aside.pnode t p } }

/-- What is left of `CoWaitForSingleFlag` when `t` runs again. -/
def Data.waitFlagReturn (d : Data) (t id n : Nat) : Data × StatusType :=
  if n ≠ 0 ∧ d.aside.pnode t = .null then (d, .E_TIMEOUT)
  else ((d.setPnode t .null).consume (flagBit id), .E_OK)

/-- What is left of `CoWaitForMultipleFlags` when `t` runs again. -/
def Data.waitFlagsReturn (d : Data) (t : Nat) (flags : BitVec 32) (n : Nat) :
    Data × BitVec 32 × StatusType :=
  if n ≠ 0 ∧ d.aside.pnode t = .null then (d, 0, .E_TIMEOUT)
  else ((d.setPnode t .null).consume (flags &&& d.aside.flagRdy), flags &&& d.aside.flagRdy, .E_OK)

/-- A flag becomes active. -/
def Data.addFlag (d : Data) (i bAutoReset bInitialState : Nat) : Data :=
  { d with aside := { d.aside with
      flagActive := d.aside.flagActive ||| flagBit i
      flagRdy := d.aside.flagRdy ||| (BitVec.ofNat 32 bInitialState <<< i)
      resetOpt := d.aside.resetOpt ||| (BitVec.ofNat 32 bAutoReset <<< i) } }

/-- `CoCreateFlag`. -/
def Data.createFlag (d : Data) (bAutoReset bInitialState : Nat) : Data × Nat :=
  match freeFlag d.aside.flagActive FLAG_MAX_NUM 0 with
  | some i => (d.addFlag i bAutoReset bInitialState, i)
  | none => (d, INVALID_ID)

/-- Does `CoDelFlag` make the node of `t` wait for the other flags only? -/
def Masks.shrinks (m : Masks) (id t : Nat) : Bool :=
  m.waitFlags t &&& flagBit id != 0 && (m.waitType t == OPT_WAIT_ALL && m.waitFlags t != flagBit id)

/-- Does `CoDelFlag` release the task `t`? -/
def Masks.drops (m : Masks) (id t : Nat) : Bool :=
  m.waitFlags t &&& flagBit id != 0 &&
    !(m.waitType t == OPT_WAIT_ALL && m.waitFlags t != flagBit id)

def Data.setWaitFlags (d : Data) (f : Nat → BitVec 32) : Data :=
  { d with aside := { d.aside with waitFlags := f } }

/-- The tasks of `S` no longer wait for `id`. -/
def Data.shrink (d : Data) (id : Nat) (S : List Nat) : Data :=
  d.setWaitFlags fun t =>
    if t ∈ S then d.aside.waitFlags t &&& ~~~ flagBit id else d.aside.waitFlags t

/-- What the loop of `CoDelFlag` does to the nodes `l`. -/
def Data.unflag (d : Data) (id : Nat) (l : List Nat) : Data :=
  (d.shrink id (l.filter (d.aside.masks.shrinks id))).springs (l.filter (d.aside.masks.drops id))

/-- A flag becomes inactive. -/
def Data.dropMasks (d : Data) (id : Nat) : Data :=
  { d with aside := { d.aside with
      flagActive := d.aside.flagActive &&& ~~~ flagBit id
      flagRdy := d.aside.flagRdy &&& ~~~ flagBit id
      resetOpt := d.aside.resetOpt &&& ~~~ flagBit id } }

/-- `CoDelFlag`. -/
def Data.delFlag (cfg : Env) (d : Data) (id opt : Nat) : Data × StatusType :=
  if d.aside.flagActive &&& flagBit id = 0 then (d, .E_INVALID_ID)
  else if opt = OPT_DEL_NO_PEND then
    if (d.aside.flagTasks cfg).any fun t => d.aside.waitFlags t &&& flagBit id != 0 then
      (d, .E_TASK_WAITING)
    else (d.dropMasks id, .E_OK)
  else if opt = OPT_DEL_ANYWAY then ((d.unflag id (d.aside.flagTasks cfg)).dropMasks id, .E_OK)
  else (d.dropMasks id, .E_OK)

section Walk

variable {cfg : Env} {a : Aside} {F : List Nat}

theorem FlagList.tasks (h : FlagList a F) (hlen : F.length ≤ cfg.tasks) : a.flagTasks cfg = F :=
  h.links.toSList.walk_eq hlen

end Walk

/-! ## Setting -/

section Calls

variable {cfg : Env} {s : Kernel} {g : Ghost} {cur t : Nat} {F : List Nat}

theorem FlagOk.tasks (h : FlagOk cfg s g F) : s.aside.flagTasks cfg = F := h.list.tasks h.length

/-- **CoSetFlag** -/
theorem coSetFlag_restful (h : Pending cfg (osSchedLock s) g cur) (hf : FlagOk cfg s g F)
    (id : Nat) :
    Restful cfg s g cur (coSetFlag cfg s id) fun st d => (d, st) = (s.data g).setFlag cfg id := by
  unfold coSetFlag Data.setFlag
  by_cases hb : badFlag s id
  · rw [if_pos hb, if_pos (show (s.data g).aside.badFlag id from hb)]
    exact restful_now rfl
  rw [if_neg hb, if_neg (show ¬ (s.data g).aside.badFlag id from hb)]
  by_cases hr : s.flagRdy &&& flagBit id ≠ 0
  · rw [if_pos hr, if_pos (show (s.data g).aside.flagRdy &&& flagBit id ≠ 0 from hr)]
    exact restful_now rfl
  rw [if_neg hr, if_neg (show ¬ (s.data g).aside.flagRdy &&& flagBit id ≠ 0 from hr)]
  let s0 := osSchedLock { s with flagRdy := s.flagRdy ||| flagBit id }
  have h0 : Pending cfg s0 g cur := h.congr rfl rfl rfl fun e => e
  have hf0 : FlagOk cfg s0 g F := ⟨hf.list.congr rfl rfl rfl, hf.wait⟩
  obtain ⟨s1, g1, e1, e2, e3, e4, e5, -, e6⟩ :=
    @setFlagLoop_spec cfg s0 g cur [] F id cfg.tasks h0 hf0
    hf.length
  have hhead : s0.headNode = F.head? := hf.list.links.head
  rw [← hhead] at e1
  have hwk : (s.data g).wakes cfg id =
      released (s0.aside.masks.sat s0.flagRdy) (s0.resetOpt &&& flagBit id != 0) F := by
    unfold Data.wakes
    rw [show (s.data g).aside.flagTasks cfg = F from hf.tasks]
    rfl
  change Restful cfg s g cur ((setFlagLoop cfg id cfg.tasks s0 s0.headNode).bind _) _
  rw [e1, hwk]
  exact restful_end ⟨e2, congrArg Cpu.OSSchedLock e3, e4, e5⟩ ⟨e6.dly, e6.clock⟩ rfl

/-- **CoAcceptSingleFlag** -/
theorem coAcceptSingleFlag_section (h : Pending cfg (osSchedLock s) g cur) (id : Nat) :
    Section cfg s g cur (coAcceptSingleFlag cfg s id) fun st d =>
      (d, st) = (s.data g).acceptFlag id := by
  unfold coAcceptSingleFlag Data.acceptFlag
  by_cases hb : badFlag s id
  · rw [if_pos hb, if_pos (show (s.data g).aside.badFlag id from hb)]
    exact section_now rfl
  rw [if_neg hb, if_neg (show ¬ (s.data g).aside.badFlag id from hb)]
  by_cases hr : s.flagRdy &&& flagBit id ≠ 0
  · rw [if_pos hr, if_pos (show (s.data g).aside.flagRdy &&& flagBit id ≠ 0 from hr)]
    refine section_end (d := (s.data g).consume (flagBit id)) ⟨h.congr rfl rfl rfl (fun e => e),
      rfl, Calm.refl _,
      ?_, rfl, (fun _ => Iff.rfl), fun _ => Iff.rfl⟩ rfl
    unfold Data.consume
    rw [BitVec.and_comm (flagBit id)]
    rfl
  · rw [if_neg hr, if_neg (show ¬ (s.data g).aside.flagRdy &&& flagBit id ≠ 0 from hr)]
    exact section_now rfl

/-- **CoAcceptMultipleFlags** -/
theorem coAcceptMultipleFlags_section (h : Pending cfg (osSchedLock s) g cur) (flags : BitVec 32)
    (ty : Nat) : Section cfg s g cur (coAcceptMultipleFlags cfg s flags ty) fun b d =>
      (d, b) = (s.data g).acceptFlags flags ty := by
  unfold coAcceptMultipleFlags Data.acceptFlags
  by_cases hb : flags &&& s.flagActive ≠ flags
  · rw [if_pos hb, if_pos (show flags &&& (s.data g).aside.flagActive ≠ flags from hb)]
    exact section_now rfl
  rw [if_neg hb, if_neg (show ¬ flags &&& (s.data g).aside.flagActive ≠ flags from hb)]
  unfold acceptFlagsSection
  dsimp only
  by_cases hr : springs (flags &&& s.flagRdy) flags ty
  · rw [if_pos hr, if_pos (show springs (flags &&& (s.data g).aside.flagRdy) flags ty from hr)]
    exact section_end (d := (s.data g).consume (flags &&& s.flagRdy))
      ⟨h.congr rfl rfl rfl (fun e => e), rfl,
      Calm.refl _, rfl, rfl, (fun _ => Iff.rfl), fun _ => Iff.rfl⟩ rfl
  · rw [if_neg hr, if_neg (show ¬ springs (flags &&& (s.data g).aside.flagRdy) flags ty from hr)]
    exact section_end (d := s.data g) ⟨h, rfl, Calm.refl _, rfl, rfl, (fun _ => Iff.rfl),
      fun _ => Iff.rfl⟩ rfl

/-! ## Waiting -/

theorem flagBlock_aside (s : Kernel) (t : Nat) (flags : BitVec 32) (ty : Nat) :
    (flagBlock s t flags ty).aside = s.aside.flagBlock t flags ty := by
  have htl : s.aside.tailNode = s.tailNode := rfl
  unfold flagBlock Aside.flagBlock
  dsimp only
  rw [htl]
  cases s.tailNode with
  | none => rfl
  | some p => rfl

theorem flagBlock_keeps (s : Kernel) (t : Nat) (flags : BitVec 32) (ty : Nat) :
    (flagBlock s t flags ty).view = s.view ∧ (flagBlock s t flags ty).cpu = s.cpu ∧
      (flagBlock s t flags ty).TaskSchedReq = s.TaskSchedReq ∧ ((flagBlock s t flags ty).Late ↔
        s.Late) := by
  unfold flagBlock
  dsimp only
  split
  · exact ⟨rfl, rfl, rfl, Iff.rfl⟩
  · exact ⟨rfl, rfl, rfl, Iff.rfl⟩

/-- The caller blocks. -/
theorem flagWait_body (h : Stable cfg s g cur) (hc : cur ≠ 0) (flags : BitVec 32)
    (ty : Nat) {n : Nat}
    (hn : n < 2 ^ 31) : ∃ s1 g1, flagWait cfg (osSchedLock s) flags ty n = osSchedUnlock cfg s1 ∧
      Body cfg s g cur ((s.data g).flagWait cur flags ty n) s1 g1 := by
  obtain ⟨v1, v2, v3, v4⟩ := flagBlock_keeps (osSchedLock s) cur flags ty
  have ha := flagBlock_aside (osSchedLock s) cur flags ty
  have h0 : Pending cfg (flagBlock (osSchedLock s) cur flags ty) g cur :=
    h.enter.congr v1 v2 v3 v4.mpr
  have hst : (flagBlock (osSchedLock s) cur flags ty).state = s.state := congrArg KView.state v1
  have hrun : (flagBlock (osSchedLock s) cur flags ty).state cur = .RUNNING := by
    rw [hst]
    exact h.picked.running
  obtain ⟨ho, -⟩ := h.coh.loc_of_running h.picked.live h.picked.running
  have hw : ∀ t, update (flagBlock (osSchedLock s) cur flags ty).state cur .WAITING t = .WAITING ↔
      t = cur ∨ s.state t = .WAITING := by
    intro t
    rw [hst]
    exact waits_block t
  unfold flagWait
  rw [show (osSchedLock s).TCBRunning = some cur from h.running]
  dsimp only
  by_cases h0n : n = 0
  · rw [if_pos h0n]
    exact ⟨_, g, rfl, h0.block hc hrun, congrArg Cpu.OSSchedLock v2, Calm.refl _, ha, rfl, hw,
      fun _ => ⟨Or.inr, fun e => e.resolve_left fun e => e.2 h0n⟩⟩
  · obtain ⟨D, f1, f2⟩ := h0.delay h.picked.live ho hc h0n hn
    rw [if_neg h0n, f1]
    refine ⟨_, _, rfl, f2, congrArg Cpu.OSSchedLock v2, calm_delay ho,
      (setDly_aside (flagBlock (osSchedLock s) cur flags ty) D).trans ha, rfl, hw, fun t => ?_⟩
    rw [timed_delay t]
    exact ⟨fun e => e.imp (fun e => ⟨e, h0n⟩) (fun e => e), fun e => e.imp And.left (fun e => e)⟩

/-- **CoWaitForSingleFlag** until it returns or blocks -/
theorem coWaitForSingleFlag_section (h : Stable cfg s g cur) (hc : cur ≠ 0) (id : Nat) {n : Nat}
    (hn : n < 2 ^ 31) : Section cfg s g cur (coWaitForSingleFlag cfg s id n) fun b d =>
      (d, b) = (s.data g).waitFlag cur id n := by
  unfold coWaitForSingleFlag Data.waitFlag
  rw [if_neg (Nat.not_lt_of_le (Nat.le_of_eq h.coh.nest)), if_neg (fun e => e h.lock)]
  by_cases hb : badFlag s id
  · rw [if_pos hb, if_pos (show (s.data g).aside.badFlag id from hb)]
    exact section_now rfl
  rw [if_neg hb, if_neg (show ¬ (s.data g).aside.badFlag id from hb)]
  unfold waitFlagSection
  dsimp only
  by_cases hr : s.flagRdy &&& flagBit id ≠ 0
  · rw [if_pos (show (osSchedLock s).flagRdy &&& flagBit id ≠ 0 from hr),
      if_pos (show (s.data g).aside.flagRdy &&& flagBit id ≠ 0 from hr)]
    refine section_end (d := (s.data g).consume (flagBit id))
      ⟨h.enter.congr rfl rfl rfl (fun e => e), rfl,
      Calm.refl _, ?_, rfl, (fun _ => Iff.rfl), fun _ => Iff.rfl⟩ rfl
    unfold Data.consume
    rw [BitVec.and_comm (flagBit id)]
    rfl
  · rw [if_neg (show ¬ (osSchedLock s).flagRdy &&& flagBit id ≠ 0 from hr),
      if_neg (show ¬ (s.data g).aside.flagRdy &&& flagBit id ≠ 0 from hr)]
    obtain ⟨s1, g1, e1, e2⟩ := flagWait_body h hc (flagBit id) OPT_WAIT_ONE hn
    rw [e1]
    exact section_end e2 rfl

/-- **CoWaitForMultipleFlags** until it returns or blocks -/
theorem coWaitForMultipleFlags_section (h : Stable cfg s g cur) (hc : cur ≠ 0) (flags : BitVec 32)
    (ty : Nat) {n : Nat} (hn : n < 2 ^ 31) :
    Section cfg s g cur (coWaitForMultipleFlags cfg s flags ty n) fun b d =>
      (d, b) = (s.data g).waitFlags cur flags ty n := by
  unfold coWaitForMultipleFlags Data.waitFlags
  rw [if_neg (Nat.not_lt_of_le (Nat.le_of_eq h.coh.nest)), if_neg (fun e => e h.lock)]
  by_cases hb : flags &&& s.flagActive ≠ flags
  · rw [if_pos hb, if_pos (show flags &&& (s.data g).aside.flagActive ≠ flags from hb)]
    exact section_now rfl
  rw [if_neg hb, if_neg (show ¬ flags &&& (s.data g).aside.flagActive ≠ flags from hb)]
  unfold waitFlagsSection
  dsimp only
  by_cases hr : springs (flags &&& s.flagRdy) flags ty
  · rw [if_pos (show springs (flags &&& (osSchedLock s).flagRdy) flags ty from hr),
      if_pos (show springs (flags &&& (s.data g).aside.flagRdy) flags ty from hr)]
    exact section_end (d := (s.data g).consume (flags &&& s.flagRdy))
      ⟨h.enter.congr rfl rfl rfl (fun e => e),
      rfl, Calm.refl _, rfl, rfl, (fun _ => Iff.rfl), fun _ => Iff.rfl⟩ rfl
  · rw [if_neg (show ¬ springs (flags &&& (osSchedLock s).flagRdy) flags ty from hr),
      if_neg (show ¬ springs (flags &&& (s.data g).aside.flagRdy) flags ty from hr)]
    obtain ⟨s1, g1, e1, e2⟩ := flagWait_body h hc flags ty hn
    rw [e1]
    exact section_end e2 rfl

/-- The rest of **CoWaitForSingleFlag** -/
theorem waitSingleReturn_section (h : Stable cfg s g cur) (id n : Nat) :
    Section cfg s g cur (waitSingleReturn cfg s cur id n) fun st d =>
      (d, st) = (s.data g).waitFlagReturn cur id n := by
  unfold waitSingleReturn Data.waitFlagReturn
  by_cases ht : n ≠ 0 ∧ s.pnode cur = .null
  · rw [if_pos ht, if_pos (show n ≠ 0 ∧ (s.data g).aside.pnode cur = .null from ht)]
    exact section_now rfl
  · rw [if_neg ht, if_neg (show ¬ (n ≠ 0 ∧ (s.data g).aside.pnode cur = .null) from ht)]
    exact section_end (d := ((s.data g).setPnode cur .null).consume (flagBit id))
      ⟨h.enter.congr rfl rfl rfl (fun e => e), rfl, Calm.refl _, rfl, rfl, (fun _ => Iff.rfl),
        fun _ => Iff.rfl⟩ rfl

/-- The rest of **CoWaitForMultipleFlags** -/
theorem waitMultipleReturn_section (h : Stable cfg s g cur) (flags : BitVec 32) (n : Nat) :
    Section cfg s g cur (waitMultipleReturn cfg s cur flags n) fun b d =>
      (d, b) = (s.data g).waitFlagsReturn cur flags n := by
  unfold waitMultipleReturn Data.waitFlagsReturn
  by_cases ht : n ≠ 0 ∧ s.pnode cur = .null
  · rw [if_pos ht, if_pos (show n ≠ 0 ∧ (s.data g).aside.pnode cur = .null from ht)]
    exact section_now rfl
  · rw [if_neg ht, if_neg (show ¬ (n ≠ 0 ∧ (s.data g).aside.pnode cur = .null) from ht)]
    exact section_end (d := ((s.data g).setPnode cur .null).consume (flags &&& s.flagRdy))
      ⟨h.enter.congr rfl rfl rfl (fun e => e), rfl, Calm.refl _, rfl, rfl, (fun _ => Iff.rfl),
        fun _ => Iff.rfl⟩ rfl

/-! ## Creation and deletion -/

/-- **CoCreateFlag** -/
theorem coCreateFlag_section (h : Pending cfg (osSchedLock s) g cur) (auto init : Nat) :
    Section cfg s g cur (coCreateFlag cfg s auto init) fun i d =>
      (d, i) = (s.data g).createFlag auto init := by
  unfold coCreateFlag Data.createFlag
  dsimp only
  rw [show (osSchedLock s).flagActive = (s.data g).aside.flagActive from rfl]
  cases freeFlag (s.data g).aside.flagActive FLAG_MAX_NUM 0 with
  | some i =>
    exact section_end (d := (s.data g).addFlag i auto init) ⟨h.congr rfl rfl rfl (fun e => e), rfl,
      Calm.refl _,
      rfl, rfl, (fun _ => Iff.rfl), fun _ => Iff.rfl⟩ rfl
  | none =>
    exact section_end (d := s.data g) ⟨h, rfl, Calm.refl _, rfl, rfl, (fun _ => Iff.rfl),
      fun _ => Iff.rfl⟩ rfl

/-- The loop of `CoDelFlag` when it may not release anybody. -/
theorem delFlagLoop_noPend (id fuel : Nat) {l1 l2 : List Nat}
    (hl : IsDList s.aside.flagLinks (l1 ++ l2))
    (hlen : l2.length ≤ fuel) : delFlagLoop cfg id OPT_DEL_NO_PEND fuel s l2.head? =
      some (s, l2.any fun t => s.waitFlags t &&& flagBit id != 0) := by
  induction l2 generalizing l1 fuel with
  | nil => cases fuel <;> rfl
  | cons t l ih =>
    rw [List.length_cons] at hlen
    obtain ⟨n, rfl⟩ := Nat.exists_eq_succ_of_ne_zero (show fuel ≠ 0 by omega)
    have hnext : s.nextNode t = l.head? := hl.next_split
    have hl' : IsDList s.aside.flagLinks ((l1 ++ [t]) ++ l) := by
      rw [List.append_assoc]
      exact hl
    rw [List.head?_cons, Nat.succ_eq_add_one, delFlagLoop, List.any_cons]
    by_cases hw : s.waitFlags t &&& flagBit id ≠ 0
    · rw [if_pos hw, if_pos rfl, bne_iff_ne.mpr hw]
      rfl
    · have hw' : (s.waitFlags t &&& flagBit id != 0) = false := by
        rw [not_not.mp hw]
        rfl
      rw [if_neg hw, hnext, hw', Bool.false_or]
      exact ih n hl' (by omega)

/-- With an option that `CoDelFlag` does not know, the nodes stay. -/
theorem delFlagLoop_other (id fuel : Nat) {opt : Nat} (h0 : opt ≠ OPT_DEL_NO_PEND)
    (h1 : opt ≠ OPT_DEL_ANYWAY) {l1 l2 : List Nat} (hl : IsDList s.aside.flagLinks (l1 ++ l2))
    (hlen : l2.length ≤ fuel) : delFlagLoop cfg id opt fuel s l2.head? = some (s, false) := by
  induction l2 generalizing l1 fuel with
  | nil => cases fuel <;> rfl
  | cons t l ih =>
    rw [List.length_cons] at hlen
    obtain ⟨n, rfl⟩ := Nat.exists_eq_succ_of_ne_zero (show fuel ≠ 0 by omega)
    have hnext : s.nextNode t = l.head? := hl.next_split
    have hl' : IsDList s.aside.flagLinks ((l1 ++ [t]) ++ l) := by
      rw [List.append_assoc]
      exact hl
    rw [List.head?_cons, Nat.succ_eq_add_one, delFlagLoop, if_neg h0, if_neg h1, ite_self, hnext]
    exact ih n hl' (by omega)

theorem spring_waitFlags (a : Aside) (f : Nat → BitVec 32) (t : Nat) :
    Aside.spring { a with waitFlags := f } t = { a.spring t with waitFlags := f } := by
  unfold Aside.spring Aside.removeLink
  dsimp only
  split
  · rfl
  · rfl
  · rfl
  · rfl

theorem Data.shrink_springs (d : Data) (id t : Nat) (S : List Nat) :
    (d.springs [t]).shrink id S = (d.shrink id S).springs [t] := by
  have hw : (d.aside.spring t).waitFlags = d.aside.waitFlags :=
    congrArg Masks.waitFlags (@spring_masks d.aside t)
  have ha : { d.aside.spring t with waitFlags := fun u =>
        if u ∈ S then (d.aside.spring t).waitFlags u &&& ~~~ flagBit id
        else (d.aside.spring t).waitFlags u } = (d.shrink id S).aside.spring t := by
    rw [hw]
    exact (spring_waitFlags ..).symm
  exact congrArg (fun a => Data.mk a d.evt (fun u => u ∉ [t] ∧ d.waits u)
    fun u => u ∉ [t] ∧ d.timed u) ha

/-- A released node, then the rest. -/
theorem Data.unflag_drop (d : Data) {id : Nat} (l : List Nat)
    (hd : d.aside.masks.drops id t = true) :
    (d.springs [t]).unflag id l = d.unflag id (t :: l) := by
  have hm : (d.springs [t]).aside.masks = d.aside.masks := spring_masks
  have hs : ¬ d.aside.masks.shrinks id t = true := by
    unfold Masks.drops at hd
    unfold Masks.shrinks
    intro e
    rw [Bool.and_eq_true] at hd e
    rw [e.2] at hd
    exact nomatch hd.2
  unfold Data.unflag
  rw [hm, Data.shrink_springs, Data.springs_cons, List.filter_cons_of_pos hd,
    List.filter_cons_of_neg hs]

/-- A node that waits for less, then the rest. -/
theorem Data.unflag_shrink (d : Data) {id : Nat} {l : List Nat}
    (hs : d.aside.masks.shrinks id t = true) (ht : t ∉ l) :
    (d.shrink id [t]).unflag id l = d.unflag id (t :: l) := by
  have hwf : ∀ u ∈ l, (d.shrink id [t]).aside.waitFlags u = d.aside.waitFlags u := by
    intro u hu
    have hut : u ∉ [t] := fun e => ht (List.mem_singleton.mp e ▸ hu)
    exact if_neg hut
  have h1 : l.filter ((d.shrink id [t]).aside.masks.shrinks id) =
    l.filter (d.aside.masks.shrinks id) := by
    apply List.filter_congr
    intro u hu
    unfold Masks.shrinks
    rw [show (d.shrink id [t]).aside.masks.waitFlags u = d.aside.masks.waitFlags u from hwf u hu]
    rfl
  have h2 : l.filter ((d.shrink id [t]).aside.masks.drops id) =
    l.filter (d.aside.masks.drops id) := by
    apply List.filter_congr
    intro u hu
    unfold Masks.drops
    rw [show (d.shrink id [t]).aside.masks.waitFlags u = d.aside.masks.waitFlags u from hwf u hu]
    rfl
  have hd : ¬ d.aside.masks.drops id t = true := by
    unfold Masks.shrinks at hs
    unfold Masks.drops
    intro e
    rw [Bool.and_eq_true] at hs e
    rw [hs.2] at e
    exact nomatch e.2
  unfold Data.unflag
  rw [h1, h2, List.filter_cons_of_pos hs, List.filter_cons_of_neg hd]
  congr 1
  refine congrArg d.setWaitFlags (funext fun u => ?_)
  change (if u ∈ l.filter (d.aside.masks.shrinks id) then
      (if u ∈ [t] then d.aside.waitFlags u &&& ~~~ flagBit id else d.aside.waitFlags u) &&& _
    else if u ∈ [t] then _ else _) = _
  simp only [List.mem_cons, List.not_mem_nil, or_false]
  by_cases hut : u = t
  · have hn : u ∉ l.filter (d.aside.masks.shrinks id) := fun e =>
      ht (hut ▸ List.mem_of_mem_filter e)
    rw [if_neg hn, if_pos hut, if_pos (Or.inl hut)]
  · rw [if_neg hut]
    simp only [hut, false_or]

/-- The loop of `CoDelFlag` when it releases the tasks that wait for nothing else. -/
theorem delFlagLoop_anyway (id fuel : Nat) {l1 l2 : List Nat} (h : Pending cfg s g cur)
    (hf : FlagOk cfg s g (l1 ++ l2)) (hlen : l2.length ≤ fuel) :
    ∃ s' g', delFlagLoop cfg id OPT_DEL_ANYWAY fuel s l2.head? = some (s', false) ∧
      Pending cfg s' g' cur ∧ s'.cpu = s.cpu ∧ Calm g g' ∧
      Holds s' g' ((s.data g).unflag id l2) := by
  induction l2 generalizing s g l1 fuel with
  | nil =>
    refine ⟨s, g, ?_, h, rfl, Calm.refl _, ?_⟩
    · cases fuel <;> rfl
    · simpa [Data.unflag, Data.shrink, Data.setWaitFlags, Data.springs] using holds_data s g
  | cons t l ih =>
    rw [List.length_cons] at hlen
    obtain ⟨n, rfl⟩ := Nat.exists_eq_succ_of_ne_zero (show fuel ≠ 0 by omega)
    have hnext : s.nextNode t = l.head? := hf.list.links.next_split
    have htl : t ∉ l := nodup_split_right hf.list.nodup
    have hf' : FlagOk cfg s g ((l1 ++ [t]) ++ l) := by
      rw [List.append_assoc]
      exact hf
    rw [List.head?_cons, Nat.succ_eq_add_one, delFlagLoop]
    by_cases hw : s.waitFlags t &&& flagBit id ≠ 0
    · rw [if_pos hw, if_neg (by decide), if_pos rfl]
      have hw' := bne_iff_ne.mpr hw
      by_cases ha : s.waitType t = OPT_WAIT_ALL ∧ s.waitFlags t ≠ flagBit id
      · -- the node goes on waiting for the other flags
        have hs : (s.data g).aside.masks.shrinks id t = true := by
          unfold Masks.shrinks
          rw [show (s.data g).aside.masks.waitFlags t = s.waitFlags t from rfl,
            show (s.data g).aside.masks.waitType t = s.waitType t from rfl, hw',
            beq_iff_eq.mpr ha.1, bne_iff_ne.mpr ha.2]
          rfl
        rw [if_pos ha]
        dsimp only
        rw [hnext]
        let s1 : Kernel := { s with
          waitFlags := update s.waitFlags t (s.waitFlags t &&& ~~~ flagBit id) }
        have hd1 : s1.data g = (s.data g).shrink id [t] := by
          refine congrArg (s.data g).setWaitFlags (funext fun u => ?_)
          change s1.waitFlags u = if u ∈ [t] then s.waitFlags u &&& _ else s.waitFlags u
          by_cases hu : u = t
          · rw [hu, if_pos (List.mem_singleton.mpr rfl)]
            exact Function.update_self ..
          · rw [if_neg (fun e => hu (List.mem_singleton.mp e))]
            exact Function.update_of_ne hu ..
        obtain ⟨s2, g2, f1, f2, f3, f4, f5⟩ :=
          @ih s1 g n (l1 ++ [t]) (h.congr rfl rfl rfl fun e => e)
          ⟨hf'.list.congr rfl rfl rfl, hf'.wait⟩ (by omega)
        rw [hd1, Data.unflag_shrink _ hs htl] at f5
        exact ⟨s2, g2, f1, f2, f3, f4, f5⟩
      · have hd : (s.data g).aside.masks.drops id t = true := by
          unfold Masks.drops
          rw [show (s.data g).aside.masks.waitFlags t = s.waitFlags t from rfl,
            show (s.data g).aside.masks.waitType t = s.waitType t from rfl, hw', Bool.true_and]
          rw [Bool.not_eq_true', Bool.and_eq_false_iff]
          rcases not_and_or.mp ha with e | e
          · exact Or.inl (beq_false_of_ne e)
          · rw [not_not.mp e]
            exact Or.inr (bne_self_eq_false _)
        obtain ⟨s1, g1, e1, e2, e3, e4, e5, e6, e7, -⟩ := removeFromLink_spec h hf
        rw [if_neg ha, e1, Option.bind_eq_bind, Option.bind_some, e7]
        obtain ⟨s2, g2, f1, f2, f3, f4, f5⟩ := @ih s1 g1 n l1 e2 e6 (by omega)
        rw [e5.eq, Data.unflag_drop _ l hd] at f5
        exact ⟨s2, g2, f1, f2, f3.trans e3, e4.trans f4, f5⟩
    · -- the node does not wait for the flag
      have hw' : (s.waitFlags t &&& flagBit id != 0) = false := by
        rw [not_not.mp hw]
        rfl
      have hs : ¬ (s.data g).aside.masks.shrinks id t = true := by
        unfold Masks.shrinks
        rw [show (s.data g).aside.masks.waitFlags t = s.waitFlags t from rfl, hw']
        exact Bool.false_ne_true
      have hd : ¬ (s.data g).aside.masks.drops id t = true := by
        unfold Masks.drops
        rw [show (s.data g).aside.masks.waitFlags t = s.waitFlags t from rfl, hw']
        exact Bool.false_ne_true
      rw [if_neg hw, hnext]
      obtain ⟨s2, g2, f1, f2, f3, f4, f5⟩ := @ih s g n (l1 ++ [t]) h hf' (by omega)
      refine ⟨s2, g2, f1, f2, f3, f4, ?_⟩
      unfold Data.unflag
      rw [List.filter_cons_of_neg hs, List.filter_cons_of_neg hd]
      exact f5

/-- **CoDelFlag** -/
theorem coDelFlag_section (h : Pending cfg (osSchedLock s) g cur) (hf : FlagOk cfg s g F)
    (id opt : Nat) : Section cfg s g cur (coDelFlag cfg s id opt) fun st d =>
      (d, st) = (s.data g).delFlag cfg id opt := by
  have hf0 : FlagOk cfg (osSchedLock s) g ([] ++ F) := ⟨hf.list, hf.wait⟩
  have hhead : (osSchedLock s).headNode = F.head? := hf.list.links.head
  have hnest : ¬ 0 < s.OSIntNesting := Nat.not_lt_of_le (Nat.le_of_eq h.coh.nest)
  unfold coDelFlag Data.delFlag
  rw [if_neg hnest, show (s.data g).aside.flagTasks cfg = F from hf.tasks]
  by_cases hb : s.flagActive &&& flagBit id = 0
  · rw [if_pos hb, if_pos (show (s.data g).aside.flagActive &&& flagBit id = 0 from hb)]
    exact section_now rfl
  rw [if_neg hb, if_neg (show ¬ (s.data g).aside.flagActive &&& flagBit id = 0 from hb)]
  unfold delFlagSection
  dsimp only
  rw [hhead]
  by_cases h0 : opt = OPT_DEL_NO_PEND
  · rw [if_pos h0, h0, delFlagLoop_noPend id cfg.tasks hf0.list.links hf.length,
      Option.bind_eq_bind, Option.bind_some]
    dsimp only
    cases hany : F.any fun t => s.waitFlags t &&& flagBit id != 0 with
    | true =>
      rw [show (F.any fun t => (osSchedLock s).waitFlags t &&& flagBit id != 0) = true from hany,
        show (F.any fun t => (s.data g).aside.waitFlags t &&& flagBit id != 0) = true from hany,
        if_pos rfl, if_pos rfl]
      exact section_end (d := s.data g) ⟨h, rfl, Calm.refl _, rfl, rfl, (fun _ => Iff.rfl),
        fun _ => Iff.rfl⟩ rfl
    | false =>
      rw [show (F.any fun t => (osSchedLock s).waitFlags t &&& flagBit id != 0) = false from hany,
        show (F.any fun t => (s.data g).aside.waitFlags t &&& flagBit id != 0) = false from hany,
        if_neg (by decide), if_neg (by decide)]
      exact section_end (d := (s.data g).dropMasks id) ⟨h.congr rfl rfl rfl (fun e => e), rfl,
        Calm.refl _, rfl,
        rfl, (fun _ => Iff.rfl), fun _ => Iff.rfl⟩ rfl
  rw [if_neg h0]
  by_cases h1 : opt = OPT_DEL_ANYWAY
  · obtain ⟨s1, g1, e1, e2, e3, e4, e5⟩ := delFlagLoop_anyway id cfg.tasks h hf0 hf.length
    rw [if_pos h1, h1, e1, Option.bind_eq_bind, Option.bind_some]
    dsimp only
    rw [if_neg (by decide)]
    have hb : Body cfg s g cur (((s.data g).unflag id F).dropMasks id) { s1 with
        flagActive := s1.flagActive &&& ~~~ flagBit id
        flagRdy := s1.flagRdy &&& ~~~ flagBit id
        resetOpt := s1.resetOpt &&& ~~~ flagBit id } g1 := by
      refine ⟨e2.congr rfl rfl rfl (fun e => e), congrArg Cpu.OSSchedLock e3, e4, ?_, e5.evt,
        e5.waits, e5.timed⟩
      change { s1.aside with
        flagActive := s1.aside.flagActive &&& ~~~ flagBit id
        flagRdy := s1.aside.flagRdy &&& ~~~ flagBit id
        resetOpt := s1.aside.resetOpt &&& ~~~ flagBit id } = _
      rw [e5.aside]
      rfl
    exact section_end hb rfl
  · rw [if_neg h1, delFlagLoop_other id cfg.tasks h0 h1 hf0.list.links hf.length,
      Option.bind_eq_bind, Option.bind_some]
    dsimp only
    rw [if_neg (by decide)]
    exact section_end (d := (s.data g).dropMasks id) ⟨h.congr rfl rfl rfl (fun e => e), rfl,
      Calm.refl _, rfl,
      rfl, (fun _ => Iff.rfl), fun _ => Iff.rfl⟩ rfl

end Calls

end CoOS
