/-
  Posts that interrupts make while the scheduler is locked.

  Such a post is put in the ring and answered at once; whether it can be made is found out by
  the drain, whose calls answer nobody. `Delivered` says that no mail is lost, `HasRoom` when this
  is so: every request names an event of its kind, and the event takes all that name it.
-/
import CoOS.Event.Race
import CoOS.Event.Status
import CoOS.Run.Expiry
import CoOS.Run.Late
import CoOS.Run.LockedTicks

namespace CoOS

open Function (update)
open DList KeyOrder

/-! ## What a drain has to do -/

/-- The requests that name the event `e`. -/
def naming (cs : List SQC) (e : Nat) : List SQC := cs.filter (·.id = e)

/-- How many posts the event `e` takes, when `w` tasks wait for it. -/
def Aside.room (a : Aside) (e w : Nat) : Nat :=
  if a.full e then 0 else a.capacity e - (a.stored e).length + w

/-- Every request can be executed; `W` are the waiting lists. -/
def HasRoom (cfg : Env) (a : Aside) (W : Nat → List Nat) (cs : List SQC) : Prop :=
  ∀ c ∈ cs, a.isKind cfg c.kind c.id ∧ (naming cs c.id).length ≤ a.room c.id (W c.id).length

instance (cfg : Env) (a : Aside) (W : Nat → List Nat) (cs : List SQC) :
    Decidable (HasRoom cfg a W cs) :=
  inferInstanceAs (Decidable (∀ c ∈ cs, _ ∧ _))

/-- Every mail of `cs` is in the event that it names, or with a task that waited for it. -/
def Delivered (a : Aside) (W : Nat → List Nat) (a' : Aside) (W' : Nat → List Nat) (cs : List SQC) :
    Prop :=
  ∀ e, ∃ R, W e = R ++ W' e ∧ R.map a'.pmail ++ a'.stored e = a.stored e ++
    (naming cs e).map SQC.mail

/-! ## On `Data` -/

section Data

variable {cfg : Env} {d d' : Data} {c : SQC} {cs : List SQC} {e v t x : Nat} {l rest : List Nat}

theorem naming_cons (c : SQC) (cs : List SQC) (e : Nat) :
    naming (c :: cs) e = if c.id = e then c :: naming cs e else naming cs e := by
  unfold naming
  rw [List.filter_cons]
  simp

theorem valid_of_kind (hc : c.type ≠ .FLAG_REQ) (hk : d.aside.isKind cfg c.kind c.id) :
    d.aside.eventType c.id ≠ .invalid := by
  rw [hk.2]
  exact kind_ne hc

theorem room_eq {a : Aside} (h : EventsOk a) (hty : a.eventType e ≠ .invalid) (w : Nat) :
    a.room e w =
    if (a.stored e).length = a.capacity e then 0 else a.capacity e - (a.stored e).length + w := by
  unfold Aside.room
  exact ite_congr (propext (full_iff (h.ok e) hty)) (fun _ => rfl) fun _ => rfl

/-- A post takes one place of its event, and none of another. -/
theorem Kept.room (h : Kept d d' e v) (ho : EventsOk d.aside) (hn : d.evt.lst e = [])
    (hf : (d.aside.stored e).length < d.aside.capacity e) {e' : Nat}
    (hty : d.aside.eventType e' ≠ .invalid)
    (hty' : d'.aside.eventType e' ≠ .invalid) : d'.aside.room e' (d'.evt.lst e').length +
      (if e' = e then 1 else 0) = d.aside.room e' (d.evt.lst e').length := by
  rw [room_eq ho hty, room_eq h.edit.ok hty', h.edit.stored, h.edit.capacity, h.evt]
  by_cases he : e' = e
  · rw [he, Function.update_self, hn, List.length_append, if_pos rfl, if_neg (Nat.ne_of_lt hf)]
    simp only [List.length_singleton, List.length_nil]
    split
    · omega
    · omega
  · rw [Function.update_of_ne he, if_neg he, Nat.add_zero]

theorem Handed.room (h : Handed d d' e v t x l rest) (ho : EventsOk d.aside)
    (hf : (d.aside.stored e).length < d.aside.capacity e) {e' : Nat}
    (hty : d.aside.eventType e' ≠ .invalid)
    (hty' : d'.aside.eventType e' ≠ .invalid) : d'.aside.room e' (d'.evt.lst e').length +
      (if e' = e then 1 else 0) = d.aside.room e' (d.evt.lst e').length := by
  rw [room_eq ho hty, room_eq h.edit.ok hty', h.edit.stored, h.edit.capacity, h.evt]
  by_cases he : e' = e
  · have hlen : rest.length = (d.aside.stored e).length := by
      have := congrArg List.length h.oldest
      rw [List.length_append, List.length_cons, List.length_cons] at this
      exact (Nat.succ.inj this).symm
    rw [he, Function.update_self, Family.take_lst_self, h.lst, hlen, if_pos rfl,
      if_neg (Nat.ne_of_lt hf), if_neg (Nat.ne_of_lt hf), List.length_cons, Nat.add_assoc]
  · rw [Function.update_of_ne he, Family.take_lst_ne _ _ he, if_neg he, Nat.add_zero]

/-- The first request takes its place; the others have to fit in what is left. -/
theorem hasRoom_cons (hk : d.aside.isKind cfg c.kind c.id)
    (htype : d'.aside.eventType = d.aside.eventType)
    (hcs : ∀ c ∈ cs, c.type ≠ .FLAG_REQ) (hc : c.type ≠ .FLAG_REQ)
    (hroom : ∀ e, d.aside.eventType e ≠ .invalid → d'.aside.room e (d'.evt.lst e).length +
      (if e = c.id then 1 else 0) = d.aside.room e (d.evt.lst e).length) :
    HasRoom cfg d.aside d.evt.lst (c :: cs) ↔ HasRoom cfg d'.aside d'.evt.lst cs := by
  have hkind : ∀ (k : EventType) (e : Nat), d'.aside.isKind cfg k e ↔ d.aside.isKind cfg k e := by
    intro k e
    unfold Aside.isKind
    rw [htype]
  refine ⟨fun h c' hc' => ?_, fun h c' hc' => ?_⟩
  · obtain ⟨h1, h2⟩ := h c' (List.mem_cons_of_mem c hc')
    have h3 := hroom c'.id (valid_of_kind (hcs c' hc') h1)
    refine ⟨(hkind _ _).mpr h1, ?_⟩
    rw [naming_cons] at h2
    by_cases he : c.id = c'.id
    · rw [if_pos he, List.length_cons] at h2
      rw [if_pos he.symm] at h3
      omega
    · rw [if_neg he] at h2
      rw [if_neg (Ne.symm he)] at h3
      omega
  · have h3 : ∀ {c' : SQC}, c' ∈ cs → d.aside.isKind cfg c'.kind c'.id :=
      fun hm => (hkind _ _).mp (h _ hm).1
    -- a request that names the event of the first one, or none of the others does
    have hself : (naming cs c.id).length ≤ d'.aside.room c.id (d'.evt.lst c.id).length := by
      cases hl : naming cs c.id with
      | nil => exact Nat.zero_le _
      | cons b l =>
        have hb : b ∈ naming cs c.id := by
          rw [hl]
          exact List.mem_cons_self
        obtain ⟨h4, h5⟩ := List.mem_filter.mp hb
        have h6 := (h b h4).2
        rwa [of_decide_eq_true h5, hl] at h6
    have h7 := hroom c.id (valid_of_kind hc hk)
    rw [if_pos rfl] at h7
    have hcid : (naming (c :: cs) c.id).length ≤ d.aside.room c.id (d.evt.lst c.id).length := by
      rw [naming_cons, if_pos rfl, List.length_cons]
      omega
    rcases List.mem_cons.mp hc' with rfl | hm
    · exact ⟨hk, hcid⟩
    · refine ⟨h3 hm, ?_⟩
      by_cases he : c'.id = c.id
      · rw [he]
        exact hcid
      · have h8 := hroom c'.id (valid_of_kind (hcs c' hm) (h3 hm))
        rw [if_neg he] at h8
        rw [naming_cons, if_neg (Ne.symm he), ← h8]
        exact (h c' hm).2

theorem Kept.answer (h : Kept d d' e v) (c : SQC) (st : StatusType) : Kept d (d'.answer c st) e v :=
  ⟨⟨⟨h.edit.ok.ok, h.edit.ok.own⟩, h.edit.stored, h.edit.capacity⟩, h.moves, h.pmail, h.sort,
    h.prio, h.evt, h.timed⟩

theorem Handed.answer (h : Handed d d' e v t x l rest) (c : SQC) (st : StatusType) :
    Handed d (d'.answer c st) e v t x l rest :=
  ⟨h.lst, h.oldest, ⟨⟨h.edit.ok.ok, h.edit.ok.own⟩, h.edit.stored, h.edit.capacity⟩, h.moves,
    h.pmail, h.sort, h.prio, h.evt, h.timed⟩

/-- What a request leaves when it can be executed: its mail is in the event, or the event's
    oldest mail is with the first of the waiting tasks. -/
theorem serve_performs (ho : EventsOk d.aside) (hc : c.type ≠ .FLAG_REQ)
    (hk : d.aside.isKind cfg c.kind c.id) (hf : d.aside.full c.id = false) :
    (d.evt.lst c.id = [] ∧ Kept d (d.serve cfg c) c.id c.mail) ∨
      ∃ t x l rest, Handed d (d.serve cfg c) c.id c.mail t x l rest := by
  have hty : d.aside.eventType c.id ≠ .invalid := valid_of_kind hc hk
  have he : d.serve cfg c = (d.postOk c.id c.mail).answer c .E_OK := by
    unfold Data.serve
    rw [request_post hc]
    unfold Data.post
    rw [if_neg (not_not.mpr hk), if_neg (Bool.eq_false_iff.mp hf)]
  rw [he]
  exact (postOk_cases ho hty hf fun hs => mail_sem (hk.2.symm.trans hs)).imp
    (fun h => ⟨h.1, h.2.answer c _⟩) fun ⟨t, x, l, rest, h⟩ => ⟨t, x, l, rest, h.answer c _⟩

theorem serve_type (c : SQC) : (d.serve cfg c).aside.eventType = d.aside.eventType :=
  congrArg Fixed.eventType (serve_fixed d c)

theorem delivered_nil (a : Aside) (W : Nat → List Nat) : Delivered a W a W [] := by
  intro e
  refine ⟨[], rfl, ?_⟩
  rw [show naming [] e = [] from rfl, List.map_nil, List.map_nil, List.append_nil, List.nil_append]

/-- A mail that is kept, and then the others. -/
theorem Kept.delivered {W : Nat → List Nat} {a : Aside} (h : Kept d d' c.id c.mail)
    (hd : Delivered d'.aside d'.evt.lst a W cs) : Delivered d.aside d.evt.lst a W (c :: cs) := by
  intro e
  obtain ⟨R, h1, h2⟩ := hd e
  rw [h.evt] at h1
  refine ⟨R, h1, h2.trans ?_⟩
  rw [h.edit.stored, naming_cons]
  by_cases he : c.id = e
  · rw [if_pos he, ← he, Function.update_self, List.append_assoc, List.map_cons]
    rfl
  · rw [if_neg he, Function.update_of_ne (Ne.symm he)]

/-- A mail that is handed over, and then the others. -/
theorem Handed.delivered {W : Nat → List Nat} {a : Aside} (h : Handed d d' c.id c.mail t x l rest)
    (hpm : a.pmail t = x) (hd : Delivered d'.aside d'.evt.lst a W cs) :
    Delivered d.aside d.evt.lst a W (c :: cs) := by
  intro e
  obtain ⟨R, h1, h2⟩ := hd e
  rw [h.evt] at h1
  rw [h.edit.stored] at h2
  rw [naming_cons]
  by_cases he : c.id = e
  · subst he
    rw [Family.take_lst_self] at h1
    rw [Function.update_self] at h2
    refine ⟨t :: R, ?_, ?_⟩
    · rw [h.lst, h1, List.cons_append]
    · rw [if_pos rfl, List.map_cons, List.map_cons, hpm, List.cons_append, h2, ← List.cons_append,
        ← h.oldest, List.append_assoc]
      rfl
  · rw [Family.take_lst_ne _ _ (Ne.symm he)] at h1
    rw [Function.update_of_ne (Ne.symm he)] at h2
    rw [if_neg he]
    exact ⟨R, h1, h2⟩

/-- A hand-over puts nobody in a list. -/
theorem Handed.evt_sub (h : Handed d d' e v t x l rest) {u e' : Nat} (hu : u ∈ d'.evt.lst e') :
    u ∈ d.evt.lst e' := by
  rw [h.evt] at hu
  by_cases he : e' = e
  · rw [he, Family.take_lst_self] at hu
    rw [he, h.lst]
    exact List.mem_cons_of_mem t hu
  · rwa [Family.take_lst_ne _ _ he] at hu

/-- The task that has been released waits for no event any more. -/
theorem Handed.free (h : Handed d d' e v t x l rest) (hw : Wf cfg d) (e' : Nat) :
    t ∉ d'.evt.lst e' := by
  intro hu
  have ht : d.evt.loc t = some e := (hw.evt.mem e t).mp (h.lst ▸ List.mem_cons_self)
  have hu' : d.evt.loc t = some e' := (hw.evt.mem e' t).mp (h.evt_sub hu)
  obtain rfl := Option.some.inj (hu'.symm.trans ht)
  rw [h.evt, Family.take_lst_self] at hu
  have hnd := hw.evt.nodup e'
  rw [h.lst] at hnd
  exact (List.nodup_cons.mp hnd).1 hu

/-- A request that cannot be executed does nothing, and nobody is told. -/
theorem request_refused (hc : c.type ≠ .FLAG_REQ)
    (hx : ¬(d.aside.isKind cfg c.kind c.id ∧ d.aside.full c.id = false)) :
    (d.request cfg c).1 = d := by
  rw [request_post hc]
  unfold Data.post
  by_cases hk : d.aside.isKind cfg c.kind c.id
  · rw [if_neg (not_not.mpr hk), if_pos (Bool.not_eq_false _ ▸ fun hf => hx ⟨hk, hf⟩)]
  · rw [if_pos hk]

/-- With room for all, the first request can be executed. -/
theorem HasRoom.first (h : HasRoom cfg d.aside d.evt.lst (c :: cs)) :
    d.aside.isKind cfg c.kind c.id ∧ d.aside.full c.id = false := by
  obtain ⟨h1, h2⟩ := h c List.mem_cons_self
  refine ⟨h1, Bool.eq_false_iff.mpr fun hf => ?_⟩
  unfold Aside.room at h2
  rw [naming_cons, if_pos rfl, if_pos hf] at h2
  exact Nat.not_succ_le_zero _ h2

/-- **The drain** delivers the mails of the requests `P` that it can execute, which are all if and
    only if there is room. -/
theorem Serves.delivers (hs : Serves cfg d cs d') :
    EventsOk d.aside → (∀ c ∈ cs, c.type ≠ .FLAG_REQ) →
    ∃ P, P.Sublist cs ∧ Delivered d.aside d.evt.lst d'.aside d'.evt.lst P ∧
      (∀ t, (∀ e, t ∉ d.evt.lst e) → d'.aside.pmail t = d.aside.pmail t) ∧
      (P = cs ↔ HasRoom cfg d.aside d.evt.lst cs) := by
  induction hs with
  | nil d =>
    refine fun _ _ => ⟨[], List.Sublist.slnil, delivered_nil _ _, fun _ _ => rfl, ?_⟩
    exact ⟨fun _ c hc => absurd hc List.not_mem_nil, fun _ => rfl⟩
  | @cons d d' c cs hw hs ih =>
    intro ho hcs
    have hc : c.type ≠ .FLAG_REQ := hcs c List.mem_cons_self
    have hcs' : ∀ c ∈ cs, c.type ≠ .FLAG_REQ := fun c hc => hcs c (List.mem_cons_of_mem _ hc)
    by_cases hx : d.aside.isKind cfg c.kind c.id ∧ d.aside.full c.id = false
    · obtain ⟨hk, hf⟩ := hx
      have hlt := length_lt_of_not_full ho (valid_of_kind hc hk) hf
      have htype := @serve_type cfg d c
      have hiff : ∀ {P : List SQC}, (c :: P = c :: cs ↔ P = cs) := by
        intro P
        rw [List.cons.injEq]
        exact and_iff_right rfl
      rcases serve_performs ho hc hk hf with ⟨hn, hp⟩ | ⟨t, x, l, rest, hp⟩
      · obtain ⟨P, h1, h2, h3, h4⟩ := ih hp.edit.ok hcs'
        refine ⟨c :: P, h1.cons_cons c, hp.delivered h2, fun t ht => ?_, ?_⟩
        · rw [h3 t (by rw [hp.evt]; exact ht), hp.pmail]
        · rw [hiff, h4, hasRoom_cons hk htype hcs' hc fun e he =>
            hp.room ho hn hlt he (by rwa [htype])]
      · obtain ⟨P, h1, h2, h3, h4⟩ := ih hp.edit.ok hcs'
        have hpm : d'.aside.pmail t = x := by
          rw [h3 t (hp.free hw), hp.pmail, Function.update_self]
        refine ⟨c :: P, h1.cons_cons c, hp.delivered hpm h2, fun u hu => ?_, ?_⟩
        · have hut : u ≠ t := by
            rintro rfl
            exact hu c.id (hp.lst ▸ List.mem_cons_self)
          rw [h3 u fun e hm => hu e (hp.evt_sub hm), hp.pmail, Function.update_of_ne hut]
        · rw [hiff, h4, hasRoom_cons hk htype hcs' hc fun e he =>
            hp.room ho hlt he (by rwa [htype])]
    · unfold Data.serve at ih
      rw [request_refused hc hx] at ih
      obtain ⟨P, h1, h2, h3, -⟩ := ih ⟨ho.ok, ho.own⟩ hcs'
      refine ⟨P, h1.cons c, h2, h3, fun e => ?_, fun h => absurd h.first hx⟩
      have := h1.length_le
      rw [e, List.length_cons] at this
      exact absurd this (Nat.not_succ_le_self _)

/-- Of two drains of the same events, that of fewer requests delivers less. -/
theorem naming_ext {P : List SQC} (h : P.Sublist cs)
    (hn : ∀ e, (naming P e).length = (naming cs e).length) : P = cs := by
  induction h with
  | slnil => rfl
  | @cons P cs c h _ =>
    have h1 := hn c.id
    have h2 : (naming P c.id).length ≤ (naming cs c.id).length := (h.filter _).length_le
    rw [naming_cons, if_pos rfl, List.length_cons] at h1
    omega
  | @cons_cons P cs c h ih =>
    refine congrArg (c :: ·) (ih fun e => ?_)
    have h1 := hn e
    rw [naming_cons, naming_cons] at h1
    split at h1
    · exact Nat.succ.inj h1
    · exact h1

theorem Delivered.length {a a' : Aside} {W W' : Nat → List Nat}
    (h : Delivered a W a' W' cs) (e : Nat) :
    (W e).length + (a'.stored e).length = (W' e).length + (a.stored e).length +
    (naming cs e).length := by
  obtain ⟨R, h1, h2⟩ := h e
  have h3 := congrArg List.length h2
  rw [List.length_append, List.length_append, List.length_map, List.length_map] at h3
  rw [h1, List.length_append]
  omega

/-- All are delivered if and only if there is room for all. -/
theorem Serves.delivered_iff (hs : Serves cfg d cs d') (ho : EventsOk d.aside)
    (hcs : ∀ c ∈ cs, c.type ≠ .FLAG_REQ) :
    Delivered d.aside d.evt.lst d'.aside d'.evt.lst cs ↔ HasRoom cfg d.aside d.evt.lst cs := by
  obtain ⟨P, h1, h2, -, h4⟩ := hs.delivers ho hcs
  rw [← h4]
  refine ⟨fun h => naming_ext h1 fun e => ?_, fun e => e ▸ h2⟩
  have h5 := h.length e
  have h6 := h2.length e
  omega

end Data

/-! ## Locked regions -/

/-- A post to an event; that of a semaphore has no mail. -/
def SQC.IsPost (c : SQC) : Prop := c.type ≠ .FLAG_REQ ∧ (c.type = .SEM_REQ → c.arg = 0)

instance (c : SQC) : Decidable c.IsPost := inferInstanceAs (Decidable (_ ∧ _))

/-- The calls on events that do not need the scheduler unlocked. -/
def Call.nests : Call → Prop
  | .accept k _ => k ≠ .invalid
  | .post k _ _ => k ≠ .invalid
  | _ => False

/-- What happens while a task has the scheduler locked: it makes calls, interrupts make posts, and
    SysTick comes. -/
inductive LockedOp where
  | call (c : Call)
  | isr (c : SQC)
  | tick

def LockedOp.Ok : LockedOp → Prop
  | .call c => c.nests
  | .isr c => c.IsPost
  | .tick => True

/-- One of these; the posts of interrupts that were answered `E_OK` are added to the list. -/
def LockedOp.exec (cfg : Env) (x : Kernel × List SQC) : LockedOp → Option (Kernel × List SQC)
  | .call c => (c.exec cfg.served x.1).map fun y => (y.1, x.2)
  | .isr c => (isrPost cfg.served x.1 c).map fun y => (y.1, if y.2 = .E_OK then x.2 ++ [c] else x.2)
  | .tick => (sysTick_Handler cfg.served x.1).map fun k => (k, x.2)

def lockedRun (cfg : Env) : List LockedOp → Kernel × List SQC → Option (Kernel × List SQC)
  | [], x => some x
  | op :: ops, x => (op.exec cfg x).bind (lockedRun cfg ops)

/-- What holds until the scheduler is unlocked: the lists and the events are in order, and the ring
    holds what was answered. -/
structure LockedOk (cfg : Env) (x : Kernel × List SQC) (g : Ghost) (cur : Nat) (F : List Nat) :
    Prop where
  pend : Pending cfg.served x.1 g cur
  flags : FlagOk cfg.served x.1 g F
  cnt : x.1.ServiceReq.cnt ≤ cfg.maxServiceRequest
  head : x.1.ServiceReq.head < cfg.maxServiceRequest
  req : x.1.IsrReq = (decide (x.1.ServiceReq.cnt ≠ 0) || x.1.TimeReq)
  timer : x.1.TimerReq = false
  events : EventsOk x.1.aside
  lock : x.1.OSSchedLock = 1
  pending : x.1.ServiceReq.pending cfg.maxServiceRequest = x.2
  posts : ∀ c ∈ x.2, c.type ≠ .FLAG_REQ

section Region

variable {cfg : Env} {k k' : Kernel} {acc : List SQC} {x : Kernel × List SQC}
    {g g' : Ghost} {cur : Nat}
  {F F' : List Nat} {d : Data}

/-- A post while the scheduler is locked is queued, whatever it names, as long as the ring has a
    free cell. -/
theorem isrPost_locked (hl : 0 < k.OSSchedLock) {c : SQC} (hc : c.IsPost) :
    isrPost cfg.served k c = some (deferReq cfg.served k c.type c.id c.arg) := by
  unfold isrPost
  cases ht : c.type with
  | SEM_REQ =>
    unfold isr_PostSem
    rw [if_pos hl, hc.2 ht]
  | MBOX_REQ =>
    unfold isr_PostMail
    rw [if_pos hl]
  | QUEUE_REQ =>
    unfold isr_PostQueueMail
    rw [if_pos hl]
  | FLAG_REQ => exact absurd ht hc.1

theorem LockedOk.isr (h : LockedOk cfg x g cur F) {c : SQC} (hc : c.IsPost) :
    ∃ y, LockedOp.exec cfg x (.isr c) = some y ∧ LockedOk cfg y g cur F := by
  obtain ⟨k, acc⟩ := x
  unfold LockedOp.exec
  dsimp only
  rw [isrPost_locked h.pend.lock hc, Option.map_some]
  refine ⟨_, rfl, ?_⟩
  unfold deferReq insertInSRQ
  by_cases hn : cfg.served.maxServiceRequest ≤ k.ServiceReq.cnt
  · rw [if_pos hn]
    exact h
  · rw [if_neg hn]
    have hlt := Nat.lt_of_not_le hn
    refine ⟨h.pend.congr rfl rfl rfl (fun e => ⟨rfl, e.2⟩),
      ⟨h.flags.list.congr rfl rfl rfl, h.flags.wait⟩,
      hlt, h.head, ?_, h.timer, ⟨h.events.ok, h.events.own⟩, h.lock, ?_, ?_⟩
    · change true = (decide (k.ServiceReq.cnt + 1 ≠ 0) || k.TimeReq)
      rw [decide_eq_true (Nat.succ_ne_zero _), Bool.true_or]
    · dsimp only
      rw [if_pos rfl, ← show _ = acc from h.pending]
      exact SRQ.pending_push hlt h.head c
    · intro c' hm
      rcases List.mem_append.mp hm with hm | hm
      · exact h.posts c' hm
      · rw [List.mem_singleton.mp hm]
        exact hc.1

theorem LockedOk.tick (h : LockedOk cfg x g cur F) :
    ∃ y g', LockedOp.exec cfg x .tick = some y ∧ LockedOk cfg y g' cur F := by
  obtain ⟨k, acc⟩ := x
  obtain ⟨g', e1, e2, e3⟩ := h.pend.tickLocked
  have hdue : k.timerDue = false := by
    unfold Kernel.timerDue
    rw [show k.tmr.TmrList = none from h.pend.coh.tmr]
    rfl
  unfold LockedOp.exec
  dsimp only
  rw [sysTick_locked h.pend.lock, Option.map_some]
  refine ⟨_, g', rfl, e1, ⟨h.flags.list.congr rfl rfl rfl, fun t ht => ?_⟩, h.cnt, h.head, ?_, ?_,
    ⟨h.events.ok, h.events.own⟩, h.lock, h.pending, h.posts⟩
  · obtain ⟨h1, h2, h3, h4⟩ := h.flags.wait t ht
    unfold Live at h1 ⊢
    rw [e2, e3]
    exact ⟨h1, h2, h3, h4⟩
  · change (k.IsrReq || k.timeDue || k.timerDue) = (_ || (k.TimeReq || k.timeDue))
    rw [hdue, Bool.or_false, show k.IsrReq = _ from h.req, Bool.or_assoc]
    rfl
  · change (k.TimerReq || k.timerDue) = false
    rw [hdue, show k.TimerReq = false from h.timer]
    rfl

/-- The end of a call in the region. -/
theorem LockedOk.next (h : LockedOk cfg (k, acc) g cur F) (hp : Pending cfg.served k' g' cur)
    (hl : k'.OSSchedLock = k.OSSchedLock) (hc : Calm g g') (hd : Holds k' g' d)
    (hf : d.aside.fixed = k.aside.fixed) (ho : EventsOk d.aside) (hF : FlagD d F) :
    LockedOk cfg (k', acc) g' cur F := by
  have hring : k'.aside.fixed.ring = k.aside.fixed.ring := by
    rw [hd.aside, hf]
  have hq : k'.ServiceReq = k.ServiceReq :=
    congrArg (fun f : Bool × Bool × Bool × SRQ => f.2.2.2) hring
  have hi : k'.IsrReq = k.IsrReq := congrArg (fun f : Bool × Bool × Bool × SRQ => f.1) hring
  have ht : k'.TimeReq = k.TimeReq := congrArg (fun f : Bool × Bool × Bool × SRQ => f.2.1) hring
  refine ⟨hp, h.flags.next hc hd hF fun t ht => Or.inl ht, ?_, ?_, ?_, ?_, ?_, hl.trans h.lock,
    ?_, h.posts⟩
  · rw [hq]
    exact h.cnt
  · rw [hq]
    exact h.head
  · rw [hq, hi, ht]
    exact h.req
  · exact (congrArg (fun f : Bool × Bool × Bool × SRQ => f.2.2.1) hring).trans h.timer
  · rw [hd.aside]
    exact ho
  · rw [hq]
    exact h.pending

theorem EventsOk.post (ho : EventsOk d.aside) {kd : EventType} (hk : kd ≠ .invalid) (e v : Nat) :
    EventsOk (d.post cfg kd e (kd.mail v)).1.aside := by
  unfold Data.post
  split
  · exact ho
  · next hn =>
    split
    · exact ho
    · next hf =>
      have hkind := not_not.mp hn
      have hty : d.aside.eventType e ≠ .invalid := by
        rw [hkind.2]
        exact hk
      rcases @postOk_cases d e (kd.mail v) ho hty (Bool.eq_false_iff.mpr hf)
        (fun hs => mail_sem (hkind.2.symm.trans hs)) with ⟨-, hp⟩ | ⟨t, x, l, rest, hp⟩
      · exact hp.edit.ok
      · exact hp.edit.ok

theorem EventsOk.accept (ho : EventsOk d.aside) (kd : EventType) (e : Nat) :
    EventsOk (d.accept cfg kd e).1.aside := by
  unfold Data.accept
  split
  · exact ho
  · split
    · next ha =>
      obtain ⟨v, l, hs⟩ := List.exists_cons_of_ne_nil (avail_iff.mp ha)
      dsimp only
      rw [take_eq ho hs]
      exact ⟨(pop_spec ho hs).ok.ok, (pop_spec ho hs).ok.own⟩
    · exact ho

theorem LockedOk.call (h : LockedOk cfg x g cur F) {c : Call} (hc : c.nests) :
    ∃ y g', LockedOp.exec cfg x (.call c) = some y ∧ LockedOk cfg y g' cur F := by
  obtain ⟨k, acc⟩ := x
  have hfin :
    ∀ {β : Type} {res : Option (Kernel × β)} {Q : β → Data → Prop} (f : β → Cont × Option Ret),
      Section cfg.served k g cur res Q → c.exec cfg.served k = (res.map fun x => (x.1, f x.2)) →
      (∀ b d, Q b d → d.aside.fixed = k.aside.fixed ∧ EventsOk d.aside ∧ FlagD d F) →
      ∃ y g', LockedOp.exec cfg (k, acc) (.call c) = some y ∧ LockedOk cfg y g' cur F := by
    intro β res Q f hs e hq
    obtain ⟨s', g', b, d, e1, e2, e3, e4, e5, e6⟩ := hs.nested h.pend
    obtain ⟨h1, h2, h3⟩ := hq b d e6
    refine ⟨(s', acc), g', ?_, h.next e2 e3 e4 e5 h1 h2 h3⟩
    unfold LockedOp.exec
    dsimp only
    rw [e, e1]
    rfl
  cases c with
  | accept kd id =>
    refine hfin (fun b => (.none, some b)) (acceptEvent_restful h.pend.enter hc id).section rfl
      fun b d hd => ?_
    obtain rfl := (Prod.mk.inj hd).1
    exact ⟨accept_fixed .., h.events.accept kd id, h.flags.data.accept kd id⟩
  | post kd id v =>
    have hmail : postEvent cfg.served k kd id v = postEvent cfg.served k kd id (kd.mail v) := by
      cases kd <;> rfl
    have e : (Call.post kd id v).exec cfg.served k =
        (postEvent cfg.served k kd id (kd.mail v)).map fun x => (x.1, .none, some (0, x.2)) := by
      rw [← hmail]
      rfl
    refine hfin (fun st => (.none, some (0, st)))
      (postEvent_restful h.pend.enter hc id fun hk => mail_sem hk).section e fun b d hd => ?_
    obtain rfl := (Prod.mk.inj hd).1
    exact ⟨post_fixed .., h.events.post hc id v, h.flags.data.post h.pend.coh.evtOk kd id _⟩
  | _ => exact hc.elim

theorem LockedOk.run (ops : List LockedOp) :
    ∀ {x : Kernel × List SQC} {g : Ghost}, LockedOk cfg x g cur F →
    (∀ op ∈ ops, op.Ok) → ∃ y g', lockedRun cfg ops x = some y ∧ LockedOk cfg y g' cur F := by
  induction ops with
  | nil => exact fun {x g} h _ => ⟨x, g, rfl, h⟩
  | cons op ops ih =>
    intro x g h hops
    obtain ⟨y, g1, e1, h1⟩ : ∃ y g', op.exec cfg x = some y ∧ LockedOk cfg y g' cur F := by
      have hop := hops op List.mem_cons_self
      cases op with
      | call c => exact h.call hop
      | isr c =>
        obtain ⟨y, e, hy⟩ := h.isr hop
        exact ⟨y, g, e, hy⟩
      | tick => exact h.tick
    obtain ⟨z, g2, e2, h2⟩ := ih h1 fun op hm => hops op (List.mem_cons_of_mem _ hm)
    refine ⟨z, g2, ?_, h2⟩
    unfold lockedRun
    rw [e1]
    exact e2

end Region

/-! ## The unlock -/

section Unlock

variable {cfg : Env} {k k1 : Kernel} {acc : List SQC} {g : Ghost} {cur : Nat} {F : List Nat}

theorem takeSwitch_waiters (s : Kernel) : (takeSwitch s).waiters cfg = s.waiters cfg := by
  funext e
  unfold takeSwitch Kernel.waiters
  split
  · rfl
  · rfl

/-- The drain, when no delay is to be ended before it. -/
theorem drain_delivers (hp : Pending cfg.served k g cur) (hl : k.OSSchedLock = 1)
    (hf : FlagOk cfg.served k g F)
    (hr : RingOk cfg.served k) (ho : EventsOk k.aside)
    (hc : ∀ c ∈ k.ServiceReq.pending cfg.maxServiceRequest, c.type ≠ .FLAG_REQ) :
    ∃ k', osSchedUnlock cfg.served k = some k' ∧
      (Delivered k.aside (k.waiters cfg) k'.aside (k'.waiters cfg)
          (k.ServiceReq.pending cfg.maxServiceRequest) ↔
        HasRoom cfg k.aside (k.waiters cfg) (k.ServiceReq.pending cfg.maxServiceRequest)) := by
  have hb : Body cfg.served { k with OSSchedLock := 0 } g cur (k.data g) k g :=
    ⟨hp, hl, Calm.refl g, holds_data k g⟩
  obtain ⟨s', g', r, F', d', q', e1, e2, -, -, -, -, e3, e4, -⟩ := hb.drain rfl hf hr
  have hw : k.waiters cfg = (k.data g).evt.lst := funext hp.coh.rep.waiters_eq
  have hw' : s'.waiters cfg = d'.evt.lst := by
    rw [← takeSwitch_waiters]
    refine (funext e2.coh.rep.waiters_eq).trans ?_
    rw [e4.evt]
    rfl
  have ha' : s'.aside = d'.aside.setRing false q' := by
    rw [← takeSwitch_aside]
    exact e4.aside
  refine ⟨s', e1, ?_⟩
  rw [hw, hw', ha']
  exact e3.delivered_iff ho hc

/-- The unlock after the end of the delays is the unlock. -/
theorem unlock_ended (hl : k.OSSchedLock = 1) (ht : k.TimeReq = true) (hi : k.IsrReq = true)
    (hm : k.TimerReq = false) (e : timeDispose cfg.inner cfg.tasks k = some k1)
    (hr : k1.reqs = k.reqs) : osSchedUnlock cfg.served k =
      osSchedUnlock cfg.served
      { k1 with IsrReq := decide (k.ServiceReq.cnt ≠ 0), TimeReq := false } := by
  have h1 : respondTime cfg.inner k = some { k1 with TimeReq := false } := by
    unfold respondTime
    rw [if_pos ht]
    exact congrArg (Option.map fun k : Kernel => { k with TimeReq := false }) e
  have hi1 : k1.IsrReq = true := (congrArg Reqs.IsrReq hr).trans hi
  have hl1 : k1.OSSchedLock = 1 := (congrArg Reqs.lock hr).trans hl
  have hm1 : ¬ k1.TimerReq = true := by
    rw [show k1.TimerReq = false from (congrArg Reqs.TimerReq hr).trans hm]
    exact Bool.false_ne_true
  have hn1 : k1.ServiceReq.cnt = k.ServiceReq.cnt := congrArg Reqs.cnt hr
  have h2 : respondTimer cfg.inner { k1 with TimeReq := false } =
    some { k1 with TimeReq := false } := if_neg hm1
  by_cases hc : k.ServiceReq.cnt = 0
  · rw [decide_eq_false (not_not.mpr hc)]
    refine unlock_responded hl ?_ h1 h2 (hn1.trans hc) hl1
    rw [hi, ht]
    rfl
  · rw [decide_eq_true hc]
    have hk : ({ k1 with TimeReq := false } : Kernel) =
      { k1 with IsrReq := true, TimeReq := false } := by
      rw [← hi1]
    have hsame : respondSRQ cfg.inner k =
      respondSRQ cfg.inner { k1 with IsrReq := true, TimeReq := false } := by
      rw [respondSRQ_parts, respondSRQ_parts, h1, hk]
      rfl
    have hserved : cfg.served.respondSRQ k =
        cfg.served.respondSRQ { k1 with IsrReq := true, TimeReq := false } := hsame
    unfold osSchedUnlock
    rw [if_pos hl, if_pos hi,
      if_pos (show ({ k1 with IsrReq := true, TimeReq := false } : Kernel).OSSchedLock = 1
      from hl1), if_pos rfl, hserved]

/-- The outermost unlock ends the delays that are over and drains what the interrupts have
    posted. -/
theorem LockedOk.unlock (h : LockedOk cfg (k, acc) g cur F) :
    ∃ k1 k', respondTime cfg.inner k = some k1 ∧ osSchedUnlock cfg.served k = some k' ∧
      (Delivered k1.aside (k1.waiters cfg) k'.aside (k'.waiters cfg) acc ↔
        HasRoom cfg k1.aside (k1.waiters cfg) acc) := by
  have hacc : k.ServiceReq.pending cfg.maxServiceRequest = acc := h.pending
  have hreq : k.IsrReq = (decide (k.ServiceReq.cnt ≠ 0) || k.TimeReq) := h.req
  cases ht : k.TimeReq with
  | false =>
    rw [ht, Bool.or_false] at hreq
    have hr : RingOk cfg.served k := ⟨h.cnt, h.head, hreq, ht, h.timer⟩
    obtain ⟨k', e1, e2⟩ :=
      drain_delivers h.pend h.lock h.flags hr h.events (by rw [hacc]; exact h.posts)
    rw [hacc] at e2
    refine ⟨k, k', ?_, e1, e2⟩
    unfold respondTime
    rw [if_neg (by rw [ht]; exact Bool.false_ne_true)]
  | true =>
    rw [ht, Bool.or_true] at hreq
    obtain ⟨k1, g1, T, F1, e1, e2, e3, e4, e5, e6⟩ :=
      (h.pend.env fun _ => none).endDelays ⟨h.flags.list,
        h.flags.wait⟩ (decide (k.ServiceReq.cnt ≠ 0))
    have hreqs : k1.reqs = k.reqs := timeDispose_reqs _ _ k1 e1
    let k2 : Kernel := { k1 with IsrReq := decide (k.ServiceReq.cnt ≠ 0), TimeReq := false }
    have hq : k2.ServiceReq = k.ServiceReq :=
      (congrArg Aside.ServiceReq e5.aside).trans
        (congrArg EvtPart.ServiceReq (expire_evtPart (k.data g) T))
    have hr : RingOk cfg.served k2 := by
      refine ⟨?_, ?_, ?_, rfl, (congrArg Reqs.TimerReq hreqs).trans h.timer⟩
      · rw [hq]
        exact h.cnt
      · rw [hq]
        exact h.head
      · rw [hq]
    have ho : EventsOk k2.aside := by
      rw [show k2.aside = _ from e5.aside]
      have hx := (h.events.congr (sameEvent_of_part (expire_evtPart (k.data g) T))).1
      exact ⟨hx.ok, hx.own⟩
    obtain ⟨k', f1, f2⟩ := @drain_delivers cfg k2 g1 cur F1 (e2.env cfg.served.respondSRQ)
      ((congrArg Reqs.lock hreqs).trans h.lock) ⟨e4.list,
        e4.wait⟩ hr ho (by rw [hq, hacc]; exact h.posts)
    rw [hq, hacc] at f2
    refine ⟨{ k1 with TimeReq := false }, k', ?_, ?_, f2⟩
    · unfold respondTime
      rw [if_pos ht]
      exact congrArg (Option.map fun k : Kernel => { k with TimeReq := false }) e1
    · exact (@unlock_ended cfg k k1 h.lock ht hreq h.timer e1 hreqs).trans f1

end Unlock

/-! ## The main result -/

section Main

variable {cfg : Env} {i : Idle} {us : List Setup} {m0 : Sys} {s : Split}

/-- **What is acknowledged is delivered**: the mails of the posts that interrupts have made while
    the scheduler was locked, and that were answered `E_OK`, are all stored or handed over when the
    scheduler is unlocked, if and only if there is room for them when the delays that are over have
    been ended. -/
theorem isr_posts_delivered (hu : ∀ u ∈ us, u.Valid) (hb : boot cfg i us = some m0)
    (h : Split.Reach cfg (Split.Ok cfg (Fine cfg)) m0 s) {ops : List LockedOp}
    (hops : ∀ op ∈ ops, op.Ok) :
    ∃ k acc k1 k', lockedRun cfg ops (osSchedLock s.m.k, []) = some (k, acc) ∧
      respondTime cfg.inner k = some k1 ∧ osSchedUnlock cfg.served k = some k' ∧
      (Delivered k1.aside (k1.waiters cfg) k'.aside (k'.waiters cfg) acc ↔
        HasRoom cfg k1.aside (k1.waiters cfg) acc) := by
  obtain ⟨g, r, F, hi, hledger⟩ := h.ledger hu hb
  have hok : LockedOk cfg (osSchedLock s.m.k, []) g r F := by
    refine ⟨hi.stable.enter, ⟨hi.flags.list.congr rfl rfl rfl, hi.flags.wait⟩, ?_, hi.head,
      ?_, hi.timer,
      ⟨hledger.flow.ok.ok, hledger.flow.ok.own⟩, ?_, ?_, fun c hc => absurd hc List.not_mem_nil⟩
    · exact Nat.le_trans (Nat.le_of_eq hi.cnt) (Nat.zero_le _)
    · change s.m.k.IsrReq = (decide (s.m.k.ServiceReq.cnt ≠ 0) || s.m.k.TimeReq)
      rw [hi.req, hi.cnt, hi.time]
      rfl
    · exact congrArg (· + 1) hi.stable.lock
    · change s.m.k.ServiceReq.pending cfg.maxServiceRequest = []
      unfold SRQ.pending
      rw [hi.cnt]
      rfl
  obtain ⟨⟨k, acc⟩, g', e, hk⟩ := hok.run ops hops
  obtain ⟨k1, k', e1, e2, e3⟩ := hk.unlock
  exact ⟨k, acc, k1, k', e, e1, e2, e3⟩

/-- A mailbox for which a task waits with a timeout, a semaphore and a queue. The tick ends the
    timeout, and the mail that is posted after it is stored. -/
theorem isr_posts_delivered_shipped : ∃ m0 s k k1 k', boot shippedEnv shippedIdle
      [.plainTask 5, .mbox sortFifo, .plainTask 10, .sem 0 1 sortFifo, .queue 1 2 sortFifo] =
        some m0 ∧
    Split.Reach shippedEnv (Split.Ok shippedEnv (Fine shippedEnv)) m0 s ∧
    s.m.k.waiters shippedEnv 0 = [1] ∧
    lockedRun shippedEnv
    [.isr ⟨.SEM_REQ, 1, 0⟩, .tick, .isr ⟨.MBOX_REQ, 0, 7⟩, .isr ⟨.QUEUE_REQ, 2, 8⟩,
      .call (.post .queue 2 9)] (osSchedLock s.m.k, []) =
        some (k, [⟨.SEM_REQ, 1, 0⟩, ⟨.MBOX_REQ, 0, 7⟩, ⟨.QUEUE_REQ, 2, 8⟩]) ∧
    respondTime shippedEnv.inner k = some k1 ∧ k1.waiters shippedEnv 0 = [] ∧
    osSchedUnlock shippedEnv.served k = some k' ∧
    Delivered k1.aside (k1.waiters shippedEnv) k'.aside (k'.waiters shippedEnv)
      [⟨.SEM_REQ, 1, 0⟩, ⟨.MBOX_REQ, 0, 7⟩, ⟨.QUEUE_REQ, 2, 8⟩] := by
  let ops : List LockedOp :=
    [.isr ⟨.SEM_REQ, 1, 0⟩, .tick, .isr ⟨.MBOX_REQ, 0, 7⟩, .isr ⟨.QUEUE_REQ, 2, 8⟩,
    .call (.post .queue 2 9)]
  let acc : List SQC := [⟨.SEM_REQ, 1, 0⟩, ⟨.MBOX_REQ, 0, 7⟩, ⟨.QUEUE_REQ, 2, 8⟩]
  obtain ⟨m0, s, h1, h2, h3⟩ :=
    @Split.ran shippedEnv (Split.Ok shippedEnv (Fine shippedEnv)) _ shippedIdle
    [.plainTask 5, .mbox sortFifo, .plainTask 10, .sem 0 1 sortFifo, .queue 1 2 sortFifo]
    [([], .call (.pend .mbox 0 1)), ([], .resume)] _
    (fun s => (s.m.k.waiters shippedEnv 0,
      (lockedRun shippedEnv ops (osSchedLock s.m.k, [])).bind fun x =>
      (respondTime shippedEnv.inner x.1).map fun k1 => (x.2, k1.waiters shippedEnv 0,
        decide (HasRoom shippedEnv k1.aside (k1.waiters shippedEnv) x.2))))
    ([1], some (acc, [], true)) (by decide +kernel)
  have hops : ∀ op ∈ ops, op.Ok := by
    simp only [ops, List.mem_cons, List.not_mem_nil, or_false, forall_eq_or_imp, forall_eq]
    exact ⟨⟨by decide, by decide⟩, trivial, ⟨by decide, by decide⟩, ⟨by decide, by decide⟩, nofun⟩
  obtain ⟨k, acc', k1, k', e1, e2, e3, e4⟩ := isr_posts_delivered (by decide) h1 h2 hops
  have h4 := congrArg (·.2) h3
  dsimp only at h4
  rw [e1, Option.bind_some, e2, Option.map_some] at h4
  obtain ⟨rfl, h5⟩ := Prod.mk.inj (Option.some.inj h4)
  obtain ⟨h5, h6⟩ := Prod.mk.inj h5
  exact ⟨m0, s, k, k1, k', h1, h2, congrArg (·.1) h3, e1, e2, h5, e3, e4.mpr (of_decide_eq_true h6)⟩

/-- Two posts to an empty mailbox while the scheduler is locked: both are answered `E_OK`, and the
    second mail is lost. -/
theorem isr_post_dropped : ∃ m0 s k k', boot shippedEnv shippedIdle
      [.plainTask 5, .mbox sortFifo] = some m0 ∧
    Split.Reach shippedEnv (Split.Ok shippedEnv (Fine shippedEnv)) m0 s ∧
    lockedRun shippedEnv [.isr ⟨.MBOX_REQ, 0, 7⟩, .isr ⟨.MBOX_REQ, 0, 8⟩] (osSchedLock s.m.k, []) =
      some (k, [⟨.MBOX_REQ, 0, 7⟩, ⟨.MBOX_REQ, 0, 8⟩]) ∧
    respondTime shippedEnv.inner k = some k ∧ osSchedUnlock shippedEnv.served k = some k' ∧
    k'.aside.stored 0 = [7] ∧
    ¬ Delivered k.aside (k.waiters shippedEnv) k'.aside (k'.waiters shippedEnv)
      [⟨.MBOX_REQ, 0, 7⟩, ⟨.MBOX_REQ, 0, 8⟩] := by
  let ops : List LockedOp := [.isr ⟨.MBOX_REQ, 0, 7⟩, .isr ⟨.MBOX_REQ, 0, 8⟩]
  obtain ⟨m0, s, h1, h2, h3⟩ :=
    @Split.ran shippedEnv (Split.Ok shippedEnv (Fine shippedEnv)) _ shippedIdle
    [.plainTask 5, .mbox sortFifo] [] _
    (fun s => (lockedRun shippedEnv ops (osSchedLock s.m.k, [])).bind fun x =>
      (osSchedUnlock shippedEnv.served x.1).map fun k' => (x.2, x.1.TimeReq,
        [k'.aside.stored 0, x.1.aside.stored 0, x.1.waiters shippedEnv 0, k'.waiters shippedEnv 0]))
    (some ([⟨.MBOX_REQ, 0, 7⟩, ⟨.MBOX_REQ, 0, 8⟩], false, [[7], [], [], []])) (by decide +kernel)
  obtain ⟨⟨k, acc⟩, e1, e2⟩ := Option.bind_eq_some_iff.mp h3
  obtain ⟨k', e3, e4⟩ := Option.map_eq_some_iff.mp e2
  obtain ⟨rfl, e5⟩ := Prod.mk.inj e4
  obtain ⟨ht, e6⟩ := Prod.mk.inj e5
  simp only [List.cons.injEq, and_true] at e6
  obtain ⟨hst, h5, h6, h7⟩ := e6
  refine ⟨m0, s, k, k', h1, h2, e1, ?_, e3, hst, fun hd => ?_⟩
  · unfold respondTime
    rw [show k.TimeReq = false from ht]
    rfl
  · have h8 := hd.length 0
    rw [hst, h5, h6, h7] at h8
    exact absurd h8 (by decide)

end Main

end CoOS
