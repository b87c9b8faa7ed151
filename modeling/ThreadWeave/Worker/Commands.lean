import ThreadWeave.Worker.Streams

/-!
# What a runtime receives

Every stream keeps its books: what its session was handed, what went into the
channel and what the runtime took out (`Ledger`). One lemma says what a step may
do to them (`Ledger.next`), and every step of the machine is a case of it
(`balanced_step`).

`streams_convey`: assignments arrive in the order of the hand-outs, and while
the stream is open none is missing; a status comes at most once, after the last
assignment, and is what handling an event of the session came to; a cancellation
is for an assignment that the session had been handed when `cancel` was called;
a stream that ends has delivered everything. A cancellation may overtake the
assignment it is for: `cancel` needs the lock only, the session's task has yet to
send.
-/

namespace ThreadWeave.Worker

open Runs (HashMap Machine)
open Rust (Channel)

/-! ## The books of a stream -/

def assignmentOf : Item → Option AssignExecutionRequest
  | .ok (.assignExecution assignment) => some assignment
  | _ => none

/-- The assignments among the items of a stream. -/
def assignments (items : List Item) : List AssignExecutionRequest := items.filterMap assignmentOf

def isCancel : Item → Bool
  | .ok (.cancelExecution _) => true
  | _ => false

theorem assignments_append (items items' : List Item) :
    assignments (items ++ items') = assignments items ++ assignments items' :=
  List.filterMap_append

theorem assignments_mono {items items' : List Item} (h : items <+: items') :
    assignments items <+: assignments items' :=
  h.filterMap _

/-- A stream against what its session was handed, what was sent and what was
received. -/
structure Ledger (w : WorkerState) (st : Stream) (handed : List AssignExecutionRequest)
    (sent received : List Item) : Prop where
  carries : st.channel.Carries sent received
  capacity : st.channel.capacity = 32
  order : assignments sent <+: handed
  complete : st.channel.receiving → handed = assignments sent ++ sending w st.session
  status : ∀ u status v, sent = u ++ .error status :: v →
    Leaving w st.session ∧ ∀ x ∈ v, isCancel x = true

section Ledger

variable {w w' : WorkerState} {st : Stream} {c : Channel Item}
  {handed more : List AssignExecutionRequest} {sent received received' : List Item}

/-- One step: `item` is what it sends through the stream, `more` what it hands
to the session. -/
theorem Ledger.next (h : Ledger w st handed sent received) (item : Option Item)
    (hcarries : c.Carries (sent ++ item.toList) received')
    (hcapacity : c.capacity = st.channel.capacity)
    (hopen : c.receiving → st.channel.receiving)
    (hsending : c.receiving → sending w st.session ++ more =
      assignments item.toList ++ sending w' st.session)
    (hout : assignments item.toList = [] ∨
      (st.channel.receiving ∧ assignments item.toList = sending w st.session))
    (hstays : Leaving w st.session → Leaving w' st.session)
    (hitem : ∀ x ∈ item, isCancel x = false → ¬ Leaving w st.session ∧
      ∀ status, x = .error status → Leaving w' st.session) :
    Ledger w' { st with channel := c } (handed ++ more) (sent ++ item.toList) received' := by
  refine ⟨hcarries, hcapacity.trans h.capacity, ?_, ?_, ?_⟩
  · rw [assignments_append]
    rcases hout with hnone | ⟨hrecv, hsend⟩
    · rw [hnone, List.append_nil]
      exact h.order.trans (List.prefix_append _ _)
    · rw [hsend, ← h.complete hrecv]
      exact List.prefix_append _ _
  · intro hrecv
    have hold := h.complete (hopen hrecv)
    rw [hold, assignments_append, List.append_assoc, List.append_assoc, hsending hrecv]
  · intro u status v hsent
    cases item with
    | none =>
        rw [Option.toList_none, List.append_nil] at hsent
        rcases h.status u status v hsent with ⟨hleaving, hv⟩
        exact ⟨hstays hleaving, hv⟩
    | some x =>
        rw [Option.toList_some] at hsent
        rcases Runs.snoc_eq_append_cons hsent with ⟨-, hx, rfl⟩ | ⟨v', rfl, hold⟩
        · -- this is the status itself
          subst hx
          exact ⟨(hitem _ rfl rfl).2 status rfl, by simp⟩
        · -- after a status only cancellations are sent
          rcases h.status u status v' hold with ⟨hleaving, hv'⟩
          refine ⟨hstays hleaving, ?_⟩
          intro y hy
          rcases List.mem_append.mp hy with hin | hlast
          · exact hv' y hin
          · rw [List.mem_singleton] at hlast
            subst hlast
            by_contra hcancel
            exact (hitem y rfl (Bool.eq_false_iff.mpr hcancel)).1 hleaving

/-- A step that does nothing to the stream: the task hands itself `more`. -/
theorem Ledger.quiet (h : Ledger w st handed sent received)
    (hsending : sending w st.session ++ more = sending w' st.session)
    (hstays : Leaving w st.session → Leaving w' st.session) :
    Ledger w' st (handed ++ more) sent received := by
  have hnext : Ledger w' { st with channel := st.channel } (handed ++ more)
      (sent ++ (none : Option Item).toList) received :=
    h.next none (by simpa using h.carries) rfl id
      (fun _ => by simpa [assignments] using hsending) (Or.inl rfl) hstays (by simp)
  simpa using hnext

end Ledger

/-! ## The trace of a stream -/

/-- The assignments a step hands to session `sid`. -/
def handedIn (sid : String) : StreamAct × StreamOut → List AssignExecutionRequest
  | (.plain a, .worker answer) => handedBy sid (a, answer)
  | _ => []

def handedTo (tr : List (StreamAct × StreamOut)) (sid : String) : List AssignExecutionRequest :=
  tr.flatMap (handedIn sid)

/-- The item a step sends through the channel of `sender`. -/
def sentIn (sender : Sender) : StreamAct × StreamOut → Option Item
  | (_, .sent sender' item) => if sender' = sender then some item else none
  | _ => none

def sentTo (tr : List (StreamAct × StreamOut)) (sender : Sender) : List Item :=
  tr.filterMap (sentIn sender)

/-- The item a step takes from the channel of `sender`. -/
def receivedIn (sender : Sender) : StreamAct × StreamOut → Option Item
  | (.receive sender', .received item) => if sender' = sender then some item else none
  | _ => none

def receivedFrom (tr : List (StreamAct × StreamOut)) (sender : Sender) : List Item :=
  tr.filterMap (receivedIn sender)

/-! ## One step of the machine, for the worker and for each stream -/

/-- A task handles an event while its handler is there. -/
def HandlersRun (s : StreamState) : Prop :=
  ∀ sid ∈ s.handlers, s.worker.tasks.lookup sid = some .handling

/-- A session has one stream. -/
def OneStream (s : StreamState) : Prop :=
  ∀ sender sender' st st', s.streams.lookup sender = some st → s.streams.lookup sender' = some st' →
    st.session = st'.session → sender = sender'

section Steps

variable {s s' : StreamState} {a : StreamAct} {o : StreamOut}

theorem affects_steps {w : WorkerState} {p : PendingState} (h : Affects w p) :
    ∃ wtr, worker.Steps w wtr { w with pending := p } ∧ (∀ sid, wtr.flatMap (handedBy sid) = []) ∧
      ∀ x ∈ wtr, ∃ c now, x.1 = .call c now := by
  rcases h with rfl | ⟨c, now, answer, hstep⟩
  · exact ⟨[], .refl, by simp, by simp⟩
  · exact ⟨[(.call c now, answer)], .snoc .refl hstep, by simp [handedBy], by simp⟩

/-- A step is none, one or two steps of the worker, and shows what they hand out. -/
theorem flows_steps (h : Flows s a o s') :
    ∃ wtr, worker.Steps s.worker wtr s'.worker ∧
      (∀ sid, wtr.flatMap (handedBy sid) = handedIn sid (a, o)) ∧
      ∀ sid sender answer, (.connect sid sender, answer) ∈ wtr → a = .connect sid sender := by
  -- no step, one step
  have hnone : s'.worker = s.worker → (∀ sid, handedIn sid (a, o) = []) →
      ∃ wtr, worker.Steps s.worker wtr s'.worker ∧
        (∀ sid, wtr.flatMap (handedBy sid) = handedIn sid (a, o)) ∧
        ∀ sid sender answer, (.connect sid sender, answer) ∈ wtr → a = .connect sid sender := by
    intro hw hhanded
    exact ⟨[], hw ▸ .refl, fun sid => (hhanded sid).symm, by simp⟩
  have hone : ∀ b answer, s.worker.step b = some (s'.worker, answer) →
      (∀ sid, handedBy sid (b, answer) = handedIn sid (a, o)) →
      (∀ sid sender, b = .connect sid sender → a = .connect sid sender) →
      ∃ wtr, worker.Steps s.worker wtr s'.worker ∧
        (∀ sid, wtr.flatMap (handedBy sid) = handedIn sid (a, o)) ∧
        ∀ sid sender answer, (.connect sid sender, answer) ∈ wtr → a = .connect sid sender := by
    intro b answer hstep hhanded hconnect
    refine ⟨[(b, answer)], .snoc .refl hstep, by simpa using hhanded, ?_⟩
    intro sid sender answer' hmem
    rw [List.mem_singleton, Prod.mk.injEq] at hmem
    exact hconnect sid sender hmem.1.symm
  cases h with
  | passive b answer w hb hw =>
      refine hone b answer hw (fun _ => rfl) ?_
      rintro sid sender rfl
      cases hb
  | connected sid sender answer w hnew hw =>
      refine hone _ answer hw (fun _ => handedBy_eq_nil (by simp)) ?_
      rintro _ _ ⟨⟩
      rfl
  | inbound sid event answer w hw =>
      exact hone _ answer hw (fun _ => handedBy_eq_nil (by simp)) (by simp)
  | hungUp sid answer w hsel hw =>
      exact hone _ answer hw (fun _ => handedBy_eq_nil (by simp)) (by simp)
  | resumed b sid p answer w hb hsid hp hw =>
      rcases affects_steps hp with ⟨wtr, hsteps, hhanded, hcalls⟩
      have hresume : worker.step { s.worker with pending := p } (.resume sid) =
          some (w, answer) := hw
      refine ⟨wtr ++ [(.resume sid, answer)], hsteps.snoc hresume, ?_, ?_⟩
      · intro sid'
        rw [List.flatMap_append, hhanded, List.flatMap_singleton, handedBy_eq_nil (by simp)]
        rcases hb with ⟨m, rfl⟩ | ⟨reply, rfl⟩
        all_goals rfl
      · intro sid' sender answer' hmem
        rcases List.mem_append.mp hmem with hin | hlast
        · rcases hcalls _ hin with ⟨c, now, hc⟩
          cases hc
        · simp at hlast
  | refused b sid p status hb hsid hp =>
      rcases affects_steps hp with ⟨wtr, hsteps, hhanded, hcalls⟩
      refine ⟨wtr, hsteps, ?_, ?_⟩
      · intro sid'
        rw [hhanded]
        rcases hb with ⟨m, rfl⟩ | ⟨reply, rfl⟩
        all_goals rfl
      · intro sid' sender answer' hin
        rcases hcalls _ hin with ⟨c, now, hc⟩
        cases hc
  | forwarding sid m p report hsid hp =>
      rcases affects_steps hp with ⟨wtr, hsteps, hhanded, hcalls⟩
      refine ⟨wtr, hsteps, hhanded, ?_⟩
      intro sid' sender answer' hin
      rcases hcalls _ hin with ⟨c, now, hc⟩
      cases hc
  | delivered sender st assignment c answer w hst htask hsend hw =>
      exact hone _ answer hw (fun _ => handedBy_eq_nil (by simp)) (by simp)
  | undelivered sender st assignment c answer w hst htask hsend hw =>
      exact hone _ answer hw (fun _ => handedBy_eq_nil (by simp)) (by simp)
  | statusSent sender st status c answer w hst hstatus hsend hw =>
      exact hone _ answer hw (fun _ => handedBy_eq_nil (by simp)) (by simp)
  | statusUnsent sender st status c answer w hst hstatus hsend hw =>
      exact hone _ answer hw (fun _ => handedBy_eq_nil (by simp)) (by simp)
  | _ => exact hnone rfl fun _ => rfl

/-- A task that handles an event does so until its body ends. -/
theorem handling_stays {w w' : WorkerState} {b : Act} {answer : Answer} {sid : String}
    (hpc : w.tasks.lookup sid = some .handling) (h : w.step b = some (w', answer))
    (hb : b ≠ .resume sid ∧ b ≠ .leave sid) : w'.tasks.lookup sid = some .handling := by
  have hother : ∀ sid' pc₀ pc, w.tasks.lookup sid' = some pc₀ → pc₀ ≠ .handling →
      (w.tasks.insert sid' pc).lookup sid = some .handling := by
    intro sid' pc₀ pc hpc₀ hne
    have hdiff : sid ≠ sid' := by
      rintro rfl
      rw [hpc, Option.some.injEq] at hpc₀
      exact hne hpc₀.symm
    exact (Finmap.lookup_insert_of_ne _ hdiff).trans hpc
  cases b with
  | enqueue assignment =>
      cases h
      exact hpc
  | call c now =>
      cases h
      exact hpc
  | cancel assignmentId reason =>
      cases h
      exact hpc
  | connect sid' sender =>
      cases step_works h with
      | connected _ _ hnew =>
          have hdiff : sid ≠ sid' := fun he => hnew (he ▸ Finmap.mem_of_lookup_eq_some hpc)
          exact (Finmap.lookup_insert_of_ne _ hdiff).trans hpc
      | moved _ sid₀ pc pc' ha => simp at ha
  | nextFor sid' =>
      cases step_works h with
      | waits _ hn => exact hother sid' _ _ hn (by simp)
      | handed _ id q r hn hq hr => exact hother sid' _ _ hn (by simp)
      | unrecorded _ id q hq hnone => exact hpc
      | moved _ sid₀ pc pc' ha => simp at ha
  | notified sid' =>
      rcases move_cases h with ⟨pc₀, hpc₀, hready, rfl⟩
      refine hother sid' pc₀ _ hpc₀ ?_
      rintro rfl
      cases hready
  | inbound sid' =>
      rcases move_cases h with ⟨pc₀, hpc₀, hready, rfl⟩
      refine hother sid' pc₀ _ hpc₀ ?_
      rintro rfl
      cases hready
  | resume sid' =>
      rcases move_cases h with ⟨pc₀, hpc₀, hready, rfl⟩
      have hdiff : sid ≠ sid' := fun he => hb.1 (he ▸ rfl)
      exact (Finmap.lookup_insert_of_ne _ hdiff).trans hpc
  | leave sid' =>
      rcases move_cases h with ⟨pc₀, hpc₀, hready, rfl⟩
      have hdiff : sid ≠ sid' := fun he => hb.2 (he ▸ rfl)
      exact (Finmap.lookup_insert_of_ne _ hdiff).trans hpc
  | disconnect sid' ids =>
      cases step_works h with
      | disconnected _ _ m hn hnd hids hm => exact hother sid' _ _ hn (by simp)
      | moved _ sid₀ pc pc' ha => simp at ha

theorem handlersRun_step (hi : HandlersRun s) (h : Flows s a o s') : HandlersRun s' := by
  intro sid hsid
  cases h with
  | passive b answer w hb hw =>
      refine handling_stays (hi sid hsid) hw ?_
      constructor
      all_goals
        rintro rfl
        cases hb
  | connected sid' sender answer w hnew hw =>
      exact handling_stays (hi sid hsid) hw (by simp)
  | inbound sid' event answer w hw =>
      rcases Finmap.mem_insert.mp hsid with rfl | hold
      · rcases move_cases hw with ⟨pc₀, hpc₀, hready, rfl⟩
        exact Finmap.lookup_insert _
      · exact handling_stays (hi sid hold) hw (by simp)
  | hungUp sid' answer w hsel hw =>
      have hne : sid' ≠ sid := by
        rintro rfl
        rw [hi sid' hsid] at hsel
        cases hsel
      exact handling_stays (hi sid hsid) hw (by simp [hne])
  | resumed b sid' p answer w hb hsid' hp hw =>
      rcases Finmap.mem_erase.mp hsid with ⟨hne, hold⟩
      have hpc : ({ s.worker with pending := p } : WorkerState).tasks.lookup sid =
          some .handling := hi sid hold
      exact handling_stays hpc hw (by simp [Ne.symm hne])
  | refused b sid' p status hb hsid' hp =>
      rcases Finmap.mem_insert.mp hsid with rfl | hold
      · exact hi sid hsid'
      · exact hi sid hold
  | forwarding sid' m p report hsid' hp =>
      rcases Finmap.mem_insert.mp hsid with rfl | hold
      · exact hi sid hsid'
      · exact hi sid hold
  | delivered sender st assignment c answer w hst htask hsend hw =>
      have hne : st.session ≠ sid := by
        rintro rfl
        rw [hi st.session hsid] at htask
        cases htask
      exact handling_stays (hi sid hsid) hw (by simp [hne])
  | undelivered sender st assignment c answer w hst htask hsend hw =>
      have hne : st.session ≠ sid := by
        rintro rfl
        rw [hi st.session hsid] at htask
        cases htask
      exact handling_stays (hi sid hsid) hw (by simp [hne])
  | statusSent sender st status c answer w hst hstatus hsend hw =>
      rcases Finmap.mem_erase.mp hsid with ⟨hne, hold⟩
      exact handling_stays (hi sid hold) hw (by simp [Ne.symm hne])
  | statusUnsent sender st status c answer w hst hstatus hsend hw =>
      rcases Finmap.mem_erase.mp hsid with ⟨hne, hold⟩
      exact handling_stays (hi sid hold) hw (by simp [Ne.symm hne])
  | _ => exact hi sid hsid

/-- A stream was there before, with the same session, or has just been opened. -/
theorem streams_of_flows (h : Flows s a o s') {sender : Sender} {st' : Stream}
    (hst' : s'.streams.lookup sender = some st') :
    (∃ st, s.streams.lookup sender = some st ∧ st.session = st'.session) ∨
    (a = .connect st'.session sender ∧ sender ∉ s.streams ∧ st'.channel = .new 32 ∧
      st'.session ∉ s.worker.tasks) := by
  have hset : ∀ sender' st c, s.streams.lookup sender' = some st →
      (s.streams.insert sender' { st with channel := c }).lookup sender = some st' →
      ∃ st, s.streams.lookup sender = some st ∧ st.session = st'.session := by
    intro sender' st c hst hin
    rcases HashMap.lookup_insert_some hin with ⟨rfl, rfl⟩ | ⟨-, hold⟩
    · exact ⟨st, hst, rfl⟩
    · exact ⟨st', hold, rfl⟩
  cases h with
  | connected sid sender' answer w hnew hw =>
      rcases HashMap.lookup_insert_some hst' with ⟨rfl, rfl⟩ | ⟨-, hold⟩
      · cases step_works hw with
        | connected _ _ hfresh => exact Or.inr ⟨rfl, hnew, rfl, hfresh⟩
        | moved _ sid₀ pc pc' ha => simp at ha
      · exact Or.inl ⟨st', hold, rfl⟩
  | delivered sender' st assignment c answer w hst htask hsend hw =>
      exact Or.inl (hset sender' st c hst hst')
  | statusSent sender' st status c answer w hst hstatus hsend hw =>
      exact Or.inl (hset sender' st c hst hst')
  | cancelSent k sender' cancel st c hk hst hsend => exact Or.inl (hset sender' st c hst hst')
  | received sender' st c item hst hrecv => exact Or.inl (hset sender' st c hst hst')
  | dropped sender' st hst => exact Or.inl (hset sender' st _ hst hst')
  | _ => exact Or.inl ⟨st', hst', rfl⟩

/-- The books of a stream over one step. -/
def Balanced (s' : StreamState) (x : StreamAct × StreamOut) (sender : Sender) (session : String)
    (handed : List AssignExecutionRequest) (sent received : List Item) : Prop :=
  ∃ st', s'.streams.lookup sender = some st' ∧ st'.session = session ∧
    Ledger s'.worker st' (handed ++ handedIn session x) (sent ++ (sentIn sender x).toList)
      (received ++ (receivedIn sender x).toList)

section Books

variable {sender : Sender} {st : Stream} {handed : List AssignExecutionRequest}
  {sent received : List Item}

/-- A step that does nothing to the stream of `sender`. -/
theorem balanced_quiet (hl : Ledger s.worker st handed sent received)
    (hst : s'.streams.lookup sender = some st)
    (hsent : sentIn sender (a, o) = none) (hreceived : receivedIn sender (a, o) = none)
    (hsending : sending s.worker st.session ++ handedIn st.session (a, o) =
      sending s'.worker st.session)
    (hstays : Leaving s.worker st.session → Leaving s'.worker st.session) :
    Balanced s' (a, o) sender st.session handed sent received := by
  refine ⟨st, hst, rfl, ?_⟩
  rw [hsent, hreceived, Option.toList_none, List.append_nil, List.append_nil]
  exact hl.quiet hsending hstays

theorem leaving_steps {w w' : WorkerState} {wtr : List (Act × Answer)} {sid : String}
    (h : worker.Steps w wtr w') (hl : Leaving w sid) : Leaving w' sid := by
  induction h with
  | refl => exact hl
  | snoc _ hstep ih => exact ih.step hstep

/-- A step in which another stream is at work. -/
theorem balanced_other (hi : OneStream s) (h : Flows s a o s')
    (hl : Ledger s.worker st handed sent received) (hst : s.streams.lookup sender = some st)
    {sender' : Sender} {st₀ : Stream} (hst₀ : s.streams.lookup sender' = some st₀)
    (hne : sender ≠ sender') {c : Channel Item}
    (hstreams : s'.streams = s.streams ∨
      s'.streams = s.streams.insert sender' { st₀ with channel := c })
    (hsent : sentIn sender (a, o) = none) (hreceived : receivedIn sender (a, o) = none)
    (hhanded : handedIn st.session (a, o) = [])
    (hsending : st.session ≠ st₀.session → sending s'.worker st.session = sending s.worker st.session) :
    Balanced s' (a, o) sender st.session handed sent received := by
  have hsession : st.session ≠ st₀.session := fun he => hne (hi _ _ _ _ hst hst₀ he)
  rcases flows_steps h with ⟨wtr, hsteps, -, -⟩
  have hst' : s'.streams.lookup sender = some st := by
    rcases hstreams with he | he
    · rw [he, hst]
    · rw [he, Finmap.lookup_insert_of_ne _ hne, hst]
  refine balanced_quiet hl hst' hsent hreceived ?_ (leaving_steps hsteps)
  rw [hhanded, List.append_nil, hsending hsession]

/-- The stream of `sender` itself takes part: `item` goes in. -/
theorem balanced_own (hl : Ledger s.worker st handed sent received) {c : Channel Item}
    (hst' : s'.streams.lookup sender = some { st with channel := c }) (item : Option Item)
    (hsent : sentIn sender (a, o) = item) (hhanded : handedIn st.session (a, o) = [])
    (hcarries : c.Carries (sent ++ item.toList) (received ++ (receivedIn sender (a, o)).toList))
    (hcapacity : c.capacity = st.channel.capacity) (hopen : c.receiving → st.channel.receiving)
    (hsending : c.receiving →
      sending s.worker st.session = assignments item.toList ++ sending s'.worker st.session)
    (hout : assignments item.toList = [] ∨
      (st.channel.receiving ∧ assignments item.toList = sending s.worker st.session))
    (hstays : Leaving s.worker st.session → Leaving s'.worker st.session)
    (hitem : ∀ x ∈ item, isCancel x = false → ¬ Leaving s.worker st.session ∧
      ∀ status, x = .error status → Leaving s'.worker st.session) :
    Balanced s' (a, o) sender st.session handed sent received := by
  refine ⟨_, hst', rfl, ?_⟩
  rw [hsent, hhanded]
  refine hl.next item hcarries hcapacity hopen ?_ hout hstays hitem
  intro hrecv
  rw [List.append_nil, hsending hrecv]

/-- Where a stream's own task stands tells whether it is about to send. -/
theorem sending_of_sending {w : WorkerState} {sid : String} {assignment : AssignExecutionRequest}
    (h : w.tasks.lookup sid = some (.sending assignment)) : sending w sid = [assignment] := by
  simp [sending, h]

theorem not_leaving_of_lookup {w : WorkerState} {sid : String} {pc : SessionPc}
    (h : w.tasks.lookup sid = some pc) (hclosing : pc ≠ .closing) (hclosed : pc ≠ .closed) :
    ¬ Leaving w sid := by
  unfold Leaving
  rw [h, Option.some.injEq, Option.some.injEq]
  exact not_or.mpr ⟨hclosing, hclosed⟩

theorem balanced_delivered (hi : OneStream s) {sender' : Sender} {st' : Stream}
    {assignment : AssignExecutionRequest} {c : Channel Item} {answer : Answer} {w : WorkerState}
    (hst' : s.streams.lookup sender' = some st')
    (htask : s.worker.tasks.lookup st'.session = some (.sending assignment))
    (hsend : st'.channel.send (.ok (.assignExecution assignment)) = some (c, true))
    (hw : s.worker.step (.resume st'.session) = some (w, answer))
    (hst : s.streams.lookup sender = some st) (hl : Ledger s.worker st handed sent received) :
    Balanced { s.setChannel sender' st' c with worker := w }
      (.deliver sender', .sent sender' (.ok (.assignExecution assignment))) sender st.session
      handed sent received := by
  have hflow := Flows.delivered (s := s) sender' st' assignment c answer w hst' htask hsend hw
  rcases Channel.send_cases hsend with ⟨-, hrecv, -, -⟩ | ⟨hfalse, -⟩
  · by_cases hs : sender = sender'
    · subst hs
      rw [hst, Option.some.injEq] at hst'
      subst hst'
      refine balanced_own hl (c := c) (Finmap.lookup_insert _)
        (some (.ok (.assignExecution assignment))) (if_pos rfl) rfl ?_ (Channel.send_capacity hsend)
        (fun _ => hrecv) ?_ ?_ (fun hlv => hlv.step hw) ?_
      · simpa [receivedIn] using hl.carries.send hsend
      · intro _
        rw [sending_of_sending htask, sending_resume hw, if_pos rfl]
        rfl
      · rw [sending_of_sending htask]
        exact Or.inr ⟨hrecv, rfl⟩
      · rintro x ⟨⟩ -
        exact ⟨not_leaving_of_lookup htask (by simp) (by simp), by simp⟩
    · refine balanced_other hi hflow hl hst hst' hs (Or.inr rfl) (if_neg (Ne.symm hs)) rfl rfl ?_
      intro hne
      rw [sending_resume hw, if_neg hne]
  · cases hfalse

theorem balanced_undelivered (hi : OneStream s) {sender' : Sender} {st' : Stream}
    {assignment : AssignExecutionRequest} {c : Channel Item} {answer : Answer} {w : WorkerState}
    (hst' : s.streams.lookup sender' = some st')
    (htask : s.worker.tasks.lookup st'.session = some (.sending assignment))
    (hsend : st'.channel.send (.ok (.assignExecution assignment)) = some (c, false))
    (hw : s.worker.step (.leave st'.session) = some (w, answer))
    (hst : s.streams.lookup sender = some st) (hl : Ledger s.worker st handed sent received) :
    Balanced { s with worker := w } (.deliver sender', .unsent) sender st.session handed sent
      received := by
  have hflow := Flows.undelivered (s := s) sender' st' assignment c answer w hst' htask hsend hw
  rcases Channel.send_cases hsend with ⟨hfalse, -⟩ | ⟨-, hclosed, -⟩
  · cases hfalse
  · by_cases hs : sender = sender'
    · -- nobody receives any more, so the books need not balance
      subst hs
      rw [hst, Option.some.injEq] at hst'
      subst hst'
      refine balanced_own hl (c := st.channel) hst none rfl rfl ?_ rfl id ?_ (Or.inl rfl)
        (fun hlv => hlv.step hw) (by simp)
      · simpa [receivedIn] using hl.carries
      · intro hopen
        rw [hclosed] at hopen
        cases hopen
    · refine balanced_other hi hflow hl hst hst' hs (c := c) (Or.inl rfl) rfl rfl rfl ?_
      intro hne
      rw [sending_leave hw, if_neg hne]

theorem balanced_status (hi : OneStream s) (hh : HandlersRun s) {sender' : Sender} {st' : Stream}
    {status : Status} {c : Channel Item} {answer : Answer} {w : WorkerState}
    (hst' : s.streams.lookup sender' = some st')
    (hstatus : s.handlers.lookup st'.session = some (.refused status))
    (hsend : st'.channel.send (.error status) = some (c, true))
    (hw : s.worker.step (.leave st'.session) = some (w, answer))
    (hst : s.streams.lookup sender = some st) (hl : Ledger s.worker st handed sent received) :
    Balanced { s.setChannel sender' st' c with
        worker := w
        handlers := s.handlers.erase st'.session }
      (.refuse sender', .sent sender' (.error status)) sender st.session handed sent received := by
  have hflow := Flows.statusSent (s := s) sender' st' status c answer w hst' hstatus hsend hw
  have htask : s.worker.tasks.lookup st'.session = some .handling :=
    hh _ (Finmap.mem_of_lookup_eq_some hstatus)
  rcases Channel.send_cases hsend with ⟨-, hrecv, -, -⟩ | ⟨hfalse, -⟩
  · by_cases hs : sender = sender'
    · subst hs
      rw [hst, Option.some.injEq] at hst'
      subst hst'
      refine balanced_own hl (c := c) (Finmap.lookup_insert _) (some (.error status)) (if_pos rfl)
        rfl ?_ (Channel.send_capacity hsend) (fun _ => hrecv) ?_ (Or.inl rfl)
        (fun hlv => hlv.step hw) ?_
      · simpa [receivedIn] using hl.carries.send hsend
      · intro _
        rw [sending_of_lookup htask (by simp), sending_leave hw, if_pos rfl]
        rfl
      · rintro x ⟨⟩ -
        exact ⟨(leaving_leave hw).2, fun _ _ => (leaving_leave hw).1⟩
    · refine balanced_other hi hflow hl hst hst' hs (Or.inr rfl) (if_neg (Ne.symm hs)) rfl rfl ?_
      intro hne
      rw [sending_leave hw, if_neg hne]
  · cases hfalse

/-- A task that was not about to send leaves its loop. -/
theorem balanced_leave (hl : Ledger s.worker st handed sent received) {sid : String}
    {w : WorkerState} {answer : Answer} (hw : s.worker.step (.leave sid) = some (w, answer))
    (hidle : sending s.worker sid = []) (hst : s.streams.lookup sender = some st)
    (hworker : s'.worker = w) (hstreams : s'.streams = s.streams)
    (hsent : sentIn sender (a, o) = none) (hreceived : receivedIn sender (a, o) = none)
    (hhanded : handedIn st.session (a, o) = []) :
    Balanced s' (a, o) sender st.session handed sent received := by
  refine balanced_quiet hl (hstreams ▸ hst) hsent hreceived ?_ ?_
  · rw [hhanded, List.append_nil, hworker, sending_leave hw]
    split_ifs with hs
    · rw [hs, hidle]
    · rfl
  · intro hlv
    rw [hworker]
    exact hlv.step hw

/-- Every step keeps the books of every stream. -/
theorem balanced_step (hi : OneStream s) (hh : HandlersRun s) (h : Flows s a o s')
    (hst : s.streams.lookup sender = some st) (hl : Ledger s.worker st handed sent received) :
    Balanced s' (a, o) sender st.session handed sent received := by
  have hstays : Leaving s.worker st.session → Leaving s'.worker st.session := by
    rcases flows_steps h with ⟨wtr, hsteps, -, -⟩
    exact leaving_steps hsteps
  cases h with
  | passive b answer w hb hw =>
      exact balanced_quiet hl hst rfl rfl (sending_passive hb hw st.session).symm hstays
  | connected sid sender' answer w hnew hw =>
      have hne : sender ≠ sender' := by
        rintro rfl
        exact hnew (Finmap.mem_of_lookup_eq_some hst)
      refine balanced_quiet hl ((Finmap.lookup_insert_of_ne _ hne).trans hst) rfl rfl ?_ hstays
      exact (List.append_nil _).trans (sending_connect hw).symm
  | inbound sid event answer w hw =>
      exact balanced_quiet hl hst rfl rfl ((List.append_nil _).trans (sending_inbound hw).symm)
        hstays
  | hungUp sid answer w hsel hw =>
      rcases (Option.any_eq_true _ _).mp hsel with ⟨pc, hpc, hready⟩
      refine balanced_leave hl hw (sending_of_lookup hpc ?_) hst rfl rfl rfl rfl rfl
      rintro assignment rfl
      cases hready
  | resumed b sid p answer w hb hsid hp hw =>
      have hlabel : handedIn st.session (a, .handled (.ok ())) = [] ∧
          receivedIn sender (a, .handled (.ok ())) = none := by
        rcases hb with ⟨m, rfl⟩ | ⟨reply, rfl⟩
        all_goals exact ⟨rfl, rfl⟩
      refine balanced_quiet hl hst rfl hlabel.2 ?_ hstays
      rw [hlabel.1, List.append_nil, sending_resume hw]
      split_ifs with hs
      · rw [hs]
        exact sending_of_lookup (hh sid hsid) (by simp)
      · rfl
  | refused b sid p status hb hsid hp =>
      have hlabel : handedIn st.session (a, .handled (.error status)) = [] ∧
          receivedIn sender (a, .handled (.error status)) = none := by
        rcases hb with ⟨m, rfl⟩ | ⟨reply, rfl⟩
        all_goals exact ⟨rfl, rfl⟩
      refine balanced_quiet hl hst rfl hlabel.2 ?_ hstays
      rw [hlabel.1, List.append_nil]
      rfl
  | forwarding sid m p report hsid hp =>
      exact balanced_quiet hl hst rfl rfl (List.append_nil _) hstays
  | delivered sender' st' assignment c answer w hst' htask hsend hw =>
      exact balanced_delivered hi hst' htask hsend hw hst hl
  | undelivered sender' st' assignment c answer w hst' htask hsend hw =>
      exact balanced_undelivered hi hst' htask hsend hw hst hl
  | statusSent sender' st' status c answer w hst' hstatus hsend hw =>
      exact balanced_status hi hh hst' hstatus hsend hw hst hl
  | statusUnsent sender' st' status c answer w hst' hstatus hsend hw =>
      have htask : s.worker.tasks.lookup st'.session = some .handling :=
        hh _ (Finmap.mem_of_lookup_eq_some hstatus)
      exact balanced_leave hl hw (sending_of_lookup htask (by simp)) hst rfl rfl rfl rfl rfl
  | cancelRefused k assignmentId reason status =>
      exact balanced_quiet hl hst rfl rfl (List.append_nil _) hstays
  | cancelling k assignmentId reason p hcancel =>
      exact balanced_quiet hl hst rfl rfl (List.append_nil _) hstays
  | cancelSent k sender' cancel st' c hk hst' hsend =>
      have hflow := Flows.cancelSent (s := s) k sender' cancel st' c hk hst' hsend
      by_cases hs : sender = sender'
      · subst hs
        rw [hst, Option.some.injEq] at hst'
        subst hst'
        rcases Channel.send_cases hsend with ⟨-, hrecv, -, -⟩ | ⟨hfalse, -⟩
        · refine balanced_own hl (c := c) (Finmap.lookup_insert _)
            (some (.ok (.cancelExecution cancel))) (if_pos rfl) rfl ?_
            (Channel.send_capacity hsend) (fun _ => hrecv) (fun _ => rfl) (Or.inl rfl) hstays ?_
          · simpa [receivedIn] using hl.carries.send hsend
          · rintro x ⟨⟩ hfalse
            cases hfalse
        · cases hfalse
      · exact balanced_other hi hflow hl hst hst' hs (Or.inr rfl) (if_neg (Ne.symm hs)) rfl rfl
          fun _ => rfl
  | cancelUnsent k r => exact balanced_quiet hl hst rfl rfl (List.append_nil _) hstays
  | received sender' st' c item hst' hrecv =>
      have hflow := Flows.received (s := s) sender' st' c item hst' hrecv
      by_cases hs : sender = sender'
      · subst hs
        rw [hst, Option.some.injEq] at hst'
        subst hst'
        have hlabel : receivedIn sender (.receive sender, .received item) = some item := if_pos rfl
        refine balanced_own hl (c := c) (Finmap.lookup_insert _) none rfl rfl ?_
          (Channel.recv_capacity hrecv) (fun _ => (Channel.recv_cases hrecv).1) (fun _ => rfl)
          (Or.inl rfl) hstays (by simp)
        rw [hlabel]
        simpa using hl.carries.recv hrecv
      · exact balanced_other hi hflow hl hst hst' hs (Or.inr rfl) rfl (if_neg (Ne.symm hs)) rfl
          fun _ => rfl
  | ended sender' st' hst' hrecv hopen hnone =>
      exact balanced_quiet hl hst rfl rfl (List.append_nil _) hstays
  | dropped sender' st' hst' =>
      have hflow := Flows.dropped (s := s) sender' st' hst'
      by_cases hs : sender = sender'
      · subst hs
        rw [hst, Option.some.injEq] at hst'
        subst hst'
        refine balanced_own hl (c := st.channel.close) (Finmap.lookup_insert _) none rfl rfl ?_ rfl
          (by simp [Channel.close]) (fun _ => rfl) (Or.inl rfl) hstays (by simp)
        simpa [receivedIn] using hl.carries.close
      · exact balanced_other hi hflow hl hst hst' hs (Or.inr rfl) rfl rfl rfl fun _ => rfl

end Books

/-! ### Where handlers, cancellations and items come from -/

/-- The steps in which `handle_event` of session `sid` may return. -/
def Concludes (sid : String) (a : StreamAct) : Prop :=
  (∃ m, a = .handle sid m) ∨ ∃ answer, a = .coreReplies sid answer

theorem refusals_of_flows (h : Flows s a o s') {sid : String} {status : Status}
    (hs : s'.handlers.lookup sid = some (.refused status)) :
    s.handlers.lookup sid = some (.refused status) ∨
      (Concludes sid a ∧ o = .handled (.error status)) := by
  have hgone : ∀ sid', (s.handlers.erase sid').lookup sid = some (.refused status) →
      s.handlers.lookup sid = some (.refused status) :=
    fun sid' he => (HashMap.lookup_erase_some he).2
  cases h with
  | inbound sid' event answer w hw =>
      rcases HashMap.lookup_insert_some hs with ⟨-, he⟩ | ⟨-, hold⟩
      · cases he
      · exact Or.inl hold
  | resumed b sid' p answer w hb hsid hp hw => exact Or.inl (hgone sid' hs)
  | refused b sid' p status' hb hsid hp =>
      rcases HashMap.lookup_insert_some hs with ⟨rfl, he⟩ | ⟨-, hold⟩
      · cases he
        exact Or.inr ⟨hb, rfl⟩
      · exact Or.inl hold
  | forwarding sid' m p report hsid hp =>
      rcases HashMap.lookup_insert_some hs with ⟨-, he⟩ | ⟨-, hold⟩
      · cases he
      · exact Or.inl hold
  | statusSent sender st status' c answer w hst hstatus hsend hw => exact Or.inl (hgone _ hs)
  | statusUnsent sender st status' c answer w hst hstatus hsend hw => exact Or.inl (hgone _ hs)
  | _ => exact Or.inl hs

theorem cancels_of_flows (h : Flows s a o s') {k : Nat} {p : Sender × CancelExecution}
    (hk : s'.cancels.lookup k = some p) :
    s.cancels.lookup k = some p ∨
      ∃ assignmentId reason, a = .cancel k assignmentId reason ∧ o = .silent ∧
        s.worker.pending.cancel assignmentId reason = .ok p := by
  cases h with
  | cancelling k' assignmentId reason p' hcancel =>
      rcases HashMap.lookup_insert_some hk with ⟨rfl, rfl⟩ | ⟨-, hold⟩
      · exact Or.inr ⟨assignmentId, reason, rfl, rfl, hcancel⟩
      · exact Or.inl hold
  | cancelSent k' sender cancel st c hk' hst hsend =>
      exact Or.inl (HashMap.lookup_erase_some hk).2
  | cancelUnsent k' r => exact Or.inl (HashMap.lookup_erase_some hk).2
  | _ => exact Or.inl hk

/-- Who has sent an item. -/
theorem sentIn_cases (h : Flows s a o s') {sender : Sender} {item : Item}
    (hitem : sentIn sender (a, o) = some item) :
    ∃ st, s.streams.lookup sender = some st ∧
      ((∃ assignment, item = .ok (.assignExecution assignment)) ∨
       (∃ status, item = .error status ∧
         s.handlers.lookup st.session = some (.refused status)) ∨
       ∃ k cancel, item = .ok (.cancelExecution cancel) ∧
         s.cancels.lookup k = some (sender, cancel)) := by
  have hown : ∀ sender' item', (if sender' = sender then some item' else none) = some item →
      sender' = sender ∧ item' = item := by
    intro sender' item' he
    split_ifs at he with hs
    exact ⟨hs, Option.some.inj he⟩
  cases h with
  | delivered sender' st assignment c answer w hst htask hsend hw =>
      rcases hown _ _ hitem with ⟨rfl, rfl⟩
      exact ⟨st, hst, Or.inl ⟨assignment, rfl⟩⟩
  | statusSent sender' st status c answer w hst hstatus hsend hw =>
      rcases hown _ _ hitem with ⟨rfl, rfl⟩
      exact ⟨st, hst, Or.inr (Or.inl ⟨status, rfl, hstatus⟩)⟩
  | cancelSent k sender' cancel st c hk hst hsend =>
      rcases hown _ _ hitem with ⟨rfl, rfl⟩
      exact ⟨st, hst, Or.inr (Or.inr ⟨k, cancel, rfl, hk⟩)⟩
  | _ => cases hitem

/-- An item is received from a stream that is there. -/
theorem receivedIn_stream (h : Flows s a o s') {sender : Sender} {item : Item}
    (hitem : receivedIn sender (a, o) = some item) : sender ∈ s.streams := by
  cases h with
  | received sender' st c item' hst hrecv =>
      have hs : sender' = sender := by
        by_contra hne
        rw [receivedIn, if_neg hne] at hitem
        cases hitem
      exact hs ▸ Finmap.mem_of_lookup_eq_some hst
  | refused b sid p status hb hsid hp =>
      rcases hb with ⟨m, rfl⟩ | ⟨reply, rfl⟩
      all_goals cases hitem
  | resumed b sid p answer w hb hsid hp hw =>
      rcases hb with ⟨m, rfl⟩ | ⟨reply, rfl⟩
      all_goals cases hitem
  | _ => cases hitem

end Steps

/-! ## The worker under several steps -/

section WorkerSteps

variable {w w' : WorkerState} {wtr : List (Act × Answer)}

theorem inv_steps (h : worker.Steps w wtr w') (hinv : Inv w) : Inv w' := by
  induction h with
  | refl => exact hinv
  | snoc _ hstep ih => exact (step_effect ih hstep).1

theorem tasks_steps (h : worker.Steps w wtr w') {sid : String} (hsid : sid ∈ w.tasks) :
    sid ∈ w'.tasks := by
  induction h with
  | refl => exact hsid
  | snoc _ hstep ih => exact tasks_stay ih hstep

theorem sessions_steps (h : worker.Steps w wtr w') {sid : String} {sender : Sender}
    (hs : w'.pending.sessions.lookup sid = some sender) :
    w.pending.sessions.lookup sid = some sender ∨
      ∃ answer, (.connect sid sender, answer) ∈ wtr := by
  induction h with
  | refl => exact Or.inl hs
  | @snoc wtr₀ w₁ w₂ b answer _ hstep ih =>
      rcases sessions_step hstep hs with hold | rfl
      · rcases ih hold with hfirst | ⟨answer', hin⟩
        · exact Or.inl hfirst
        · exact Or.inr ⟨answer', List.mem_append_left _ hin⟩
      · exact Or.inr ⟨answer, by simp⟩

theorem held_steps (h : worker.Steps w wtr w') {id sid : String} {r : AssignmentRecord}
    (hr : w'.pending.assignments.lookup id = some r) (hsess : r.sessionId = some sid) :
    (∃ r₀, w.pending.assignments.lookup id = some r₀ ∧ r₀.sessionId = some sid ∧
      r₀.assignment = r.assignment) ∨ r.assignment ∈ wtr.flatMap (handedBy sid) := by
  induction h generalizing r with
  | refl => exact Or.inl ⟨r, hr, hsess, rfl⟩
  | @snoc wtr₀ w₁ w₂ b answer _ hstep ih =>
      rw [List.flatMap_append, List.flatMap_singleton, List.mem_append]
      rcases held_step hstep hr hsess with ⟨r₁, hr₁, hsess₁, hsame⟩ | hnow
      · rcases ih hr₁ hsess₁ with ⟨r₀, hr₀, hsess₀, hsame₀⟩ | hin
        · exact Or.inl ⟨r₀, hr₀, hsess₀, hsame₀.trans hsame⟩
        · exact Or.inr (Or.inl (hsame ▸ hin))
      · exact Or.inr (Or.inr hnow)

/-- A session that is handed something has a task. -/
theorem tasks_of_handed (h : worker.Steps w wtr w') {sid : String}
    {assignment : AssignExecutionRequest} (hin : assignment ∈ wtr.flatMap (handedBy sid)) :
    sid ∈ w'.tasks := by
  induction h with
  | refl => simp at hin
  | @snoc wtr₀ w₁ w₂ b answer _ hstep ih =>
      rw [List.flatMap_append, List.flatMap_singleton, List.mem_append] at hin
      rcases hin with hold | hnow
      · exact tasks_stay (ih hold) hstep
      · cases step_works hstep with
        | handed sid' id q r hpc hq hr =>
            have hs : sid' = sid := by
              by_contra hne
              simp [handedBy, hne] at hnow
            subst hs
            exact Finmap.mem_insert.mpr (Or.inl rfl)
        | moved b sid' pc pc' hb hpc hne hne' =>
            simp only [List.mem_cons, List.not_mem_nil, or_false] at hb
            rcases hb with rfl | rfl | rfl | rfl
            all_goals simp [handedBy] at hnow
        | _ => simp [handedBy] at hnow

end WorkerSteps

/-! ## The invariant -/

/-- `cancel` is for an assignment that session `sid` had been handed when
`cancel` was called. -/
def Covered (tr : List (StreamAct × StreamOut)) (sid : String) (cancel : CancelExecution) : Prop :=
  ∃ p k q assignment,
    tr = p ++ (.cancel k cancel.assignmentId cancel.reason, .silent) :: q ∧
    assignment ∈ handedTo p sid ∧ assignment.assignmentId = cancel.assignmentId ∧
    assignment.executionId = cancel.executionId

/-- Handling an event of session `sid` came to `status`. -/
def RefusedWith (tr : List (StreamAct × StreamOut)) (sid : String) (status : Status) : Prop :=
  ∃ x ∈ tr, Concludes sid x.1 ∧ x.2 = .handled (.error status)

/-- What the trace says about the streams. -/
structure Streaming (tr : List (StreamAct × StreamOut)) (s : StreamState) : Prop where
  inv : Inv s.worker
  handlers : HandlersRun s
  one : OneStream s
  tasks : ∀ sender st, s.streams.lookup sender = some st → st.session ∈ s.worker.tasks
  registered : ∀ sid sender, s.worker.pending.sessions.lookup sid = some sender →
    ∃ st, s.streams.lookup sender = some st ∧ st.session = sid
  ledger : ∀ sender st, s.streams.lookup sender = some st →
    Ledger s.worker st (handedTo tr st.session) (sentTo tr sender) (receivedFrom tr sender)
  unopened : ∀ sender, sender ∉ s.streams → sentTo tr sender = [] ∧ receivedFrom tr sender = []
  unhanded : ∀ sid, sid ∉ s.worker.tasks → handedTo tr sid = []
  held : ∀ id r sid, s.worker.pending.assignments.lookup id = some r → r.sessionId = some sid →
    r.assignment ∈ handedTo tr sid
  cancels : ∀ k sender cancel, s.cancels.lookup k = some (sender, cancel) →
    ∃ st, s.streams.lookup sender = some st ∧ Covered tr st.session cancel
  cancelled : ∀ sender st cancel, s.streams.lookup sender = some st →
    .ok (.cancelExecution cancel) ∈ sentTo tr sender → Covered tr st.session cancel
  refusals : ∀ sid status, s.handlers.lookup sid = some (.refused status) →
    RefusedWith tr sid status
  refused : ∀ sender st status, s.streams.lookup sender = some st →
    .error status ∈ sentTo tr sender → RefusedWith tr st.session status

section Streaming

variable {tr : List (StreamAct × StreamOut)} {s s' : StreamState} {a : StreamAct} {o : StreamOut}

theorem handedTo_snoc (tr : List (StreamAct × StreamOut)) (x : StreamAct × StreamOut)
    (sid : String) : handedTo (tr ++ [x]) sid = handedTo tr sid ++ handedIn sid x := by
  simp [handedTo, List.flatMap_append]

theorem sentTo_snoc (tr : List (StreamAct × StreamOut)) (x : StreamAct × StreamOut)
    (sender : Sender) : sentTo (tr ++ [x]) sender = sentTo tr sender ++ (sentIn sender x).toList :=
  Runs.filterMap_snoc _ tr x

theorem receivedFrom_snoc (tr : List (StreamAct × StreamOut)) (x : StreamAct × StreamOut)
    (sender : Sender) :
    receivedFrom (tr ++ [x]) sender = receivedFrom tr sender ++ (receivedIn sender x).toList :=
  Runs.filterMap_snoc _ tr x

theorem Covered.snoc {sid : String} {cancel : CancelExecution} (h : Covered tr sid cancel)
    (x : StreamAct × StreamOut) : Covered (tr ++ [x]) sid cancel := by
  rcases h with ⟨p, k, q, assignment, htr, hin, hid, hexec⟩
  exact ⟨p, k, q ++ [x], assignment, by simp [htr], hin, hid, hexec⟩

theorem RefusedWith.snoc {sid : String} {status : Status} (h : RefusedWith tr sid status)
    (x : StreamAct × StreamOut) : RefusedWith (tr ++ [x]) sid status := by
  rcases h with ⟨y, hy, hconc, hout⟩
  exact ⟨y, List.mem_append_left _ hy, hconc, hout⟩

/-- A stream stays, with its session and balanced books. -/
theorem Streaming.stays (h : Streaming tr s) (hstep : Flows s a o s') {sender : Sender}
    {st : Stream} (hst : s.streams.lookup sender = some st) :
    ∃ st', s'.streams.lookup sender = some st' ∧ st'.session = st.session ∧
      Ledger s'.worker st' (handedTo (tr ++ [(a, o)]) st.session) (sentTo (tr ++ [(a, o)]) sender)
        (receivedFrom (tr ++ [(a, o)]) sender) := by
  rw [handedTo_snoc, sentTo_snoc, receivedFrom_snoc]
  exact balanced_step h.one h.handlers hstep hst (h.ledger sender st hst)

/-- The books of a stream that has just been opened. -/
theorem Streaming.opened (h : Streaming tr s) {sid : String} {sender : Sender}
    (hstep : Flows s (.connect sid sender) o s') (hnew : sender ∉ s.streams)
    (hfresh : sid ∉ s.worker.tasks) {st' : Stream} (hsession : st'.session = sid)
    (hchannel : st'.channel = .new 32) :
    Ledger s'.worker st' (handedTo (tr ++ [(.connect sid sender, o)]) st'.session)
      (sentTo (tr ++ [(.connect sid sender, o)]) sender)
      (receivedFrom (tr ++ [(.connect sid sender, o)]) sender) := by
  rcases h.unopened sender hnew with ⟨hsent, hreceived⟩
  have hquiet : o = .silent ∧ sending s'.worker sid = [] := by
    cases hstep with
    | connected _ _ answer w _ hw =>
        refine ⟨rfl, ?_⟩
        show sending w sid = []
        rw [sending_connect hw]
        simp [sending, Finmap.lookup_eq_none.mpr hfresh]
    | resumed b sid' p answer w hb => simp at hb
    | refused b sid' p status hb => simp at hb
  rcases hquiet with ⟨rfl, hidle⟩
  rw [handedTo_snoc, sentTo_snoc, receivedFrom_snoc, hsent, hreceived, hsession,
    h.unhanded sid hfresh]
  refine ⟨?_, ?_, List.prefix_refl _, ?_, ?_⟩
  · rw [hchannel]
    exact Channel.carries_new 32
  · rw [hchannel]
    rfl
  · intro _
    rw [hsession, hidle]
    rfl
  · intro u status v hnil
    simp [sentIn] at hnil

/-- What `cancel` finds under the lock. -/
theorem cancel_ok {p : PendingState} {assignmentId : String} {reason : Option String}
    {sender : Sender} {cancel : CancelExecution}
    (h : p.cancel assignmentId reason = .ok (sender, cancel)) :
    ∃ r sid, p.assignments.lookup assignmentId = some r ∧ r.sessionId = some sid ∧
      p.sessions.lookup sid = some sender ∧
      cancel = ⟨assignmentId, r.assignment.executionId, reason⟩ := by
  unfold PendingState.cancel at h
  split at h
  · cases h
  · rename_i r hr
    split at h
    · cases h
    · rename_i sid hsid
      split at h
      · cases h
      · rename_i sender' hsender
        cases h
        exact ⟨r, sid, hr, hsid, hsender, rfl⟩

/-- A cancellation that has just left the lock. -/
theorem Streaming.covered (h : Streaming tr s) {k : Nat} {assignmentId : String}
    {reason : Option String} {sender : Sender} {cancel : CancelExecution}
    (hcancel : s.worker.pending.cancel assignmentId reason = .ok (sender, cancel)) :
    ∃ st, s.streams.lookup sender = some st ∧
      Covered (tr ++ [(.cancel k assignmentId reason, .silent)]) st.session cancel := by
  rcases cancel_ok hcancel with ⟨r, sid, hr, hsid, hsender, rfl⟩
  rcases h.registered sid sender hsender with ⟨st, hst, rfl⟩
  refine ⟨st, hst, tr, k, [], r.assignment, rfl, h.held _ r _ hr hsid, ?_, rfl⟩
  exact (h.inv.rep.records _ r hr).keyed

/-- A stream that something was sent through is not new. -/
theorem Streaming.session_of_sent (h : Streaming tr s) (hstep : Flows s a o s') {sender : Sender}
    {st' : Stream} {item : Item} (hst' : s'.streams.lookup sender = some st')
    (hin : item ∈ sentTo (tr ++ [(a, o)]) sender) :
    ∃ st, s.streams.lookup sender = some st ∧ st.session = st'.session := by
  rcases streams_of_flows hstep hst' with hold | ⟨-, hnew, -⟩
  · exact hold
  · rw [sentTo_snoc, (h.unopened sender hnew).1, List.nil_append, Option.mem_toList] at hin
    rcases sentIn_cases hstep hin with ⟨st, hst, -⟩
    exact absurd (Finmap.mem_of_lookup_eq_some hst) hnew

theorem Streaming.one_step (h : Streaming tr s) (hstep : Flows s a o s') : OneStream s' := by
  intro sender sender' st st' hst hst' hsame
  rcases streams_of_flows hstep hst with ⟨st₀, hst₀, hs₀⟩ | ⟨ha, -, -, hfresh⟩
  · rcases streams_of_flows hstep hst' with ⟨st₁, hst₁, hs₁⟩ | ⟨-, -, -, hfresh⟩
    · exact h.one sender sender' st₀ st₁ hst₀ hst₁ (by rw [hs₀, hs₁, hsame])
    · exact absurd (h.tasks sender st₀ hst₀) (by rw [hs₀, hsame]; exact hfresh)
  · rcases streams_of_flows hstep hst' with ⟨st₁, hst₁, hs₁⟩ | ⟨ha', -, -, -⟩
    · exact absurd (h.tasks sender' st₁ hst₁) (by rw [hs₁, ← hsame]; exact hfresh)
    · rw [ha, StreamAct.connect.injEq] at ha'
      exact ha'.2

theorem Streaming.tasks_step (h : Streaming tr s) (hstep : Flows s a o s') {sender : Sender}
    {st' : Stream} (hst' : s'.streams.lookup sender = some st') :
    st'.session ∈ s'.worker.tasks := by
  rcases streams_of_flows hstep hst' with ⟨st, hst, hs⟩ | ⟨rfl, -, -, -⟩
  · rcases flows_steps hstep with ⟨wtr, hsteps, -, -⟩
    exact hs ▸ tasks_steps hsteps (h.tasks sender st hst)
  · cases hstep with
    | connected _ _ answer w hnew hw =>
        cases step_works hw with
        | connected _ _ _ => exact Finmap.mem_insert.mpr (Or.inl rfl)
        | moved _ sid₀ pc pc' ha => simp at ha
    | resumed b sid' p answer w hb => simp at hb
    | refused b sid' p status hb => simp at hb

theorem Streaming.registered_step (h : Streaming tr s) (hstep : Flows s a o s') {sid : String}
    {sender : Sender} (hsender : s'.worker.pending.sessions.lookup sid = some sender) :
    ∃ st, s'.streams.lookup sender = some st ∧ st.session = sid := by
  rcases flows_steps hstep with ⟨wtr, hsteps, -, hconnect⟩
  rcases sessions_steps hsteps hsender with hold | ⟨answer, hin⟩
  · rcases h.registered sid sender hold with ⟨st, hst, rfl⟩
    rcases h.stays hstep hst with ⟨st', hst', hsame, -⟩
    exact ⟨st', hst', hsame⟩
  · have ha := hconnect sid sender answer hin
    subst ha
    cases hstep with
    | connected _ _ answer' w hnew hw => exact ⟨_, Finmap.lookup_insert _, rfl⟩
    | resumed b sid' p answer' w hb => simp at hb
    | refused b sid' p status hb => simp at hb

theorem Streaming.ledger_step (h : Streaming tr s) (hstep : Flows s a o s') {sender : Sender}
    {st' : Stream} (hst' : s'.streams.lookup sender = some st') :
    Ledger s'.worker st' (handedTo (tr ++ [(a, o)]) st'.session) (sentTo (tr ++ [(a, o)]) sender)
      (receivedFrom (tr ++ [(a, o)]) sender) := by
  rcases streams_of_flows hstep hst' with ⟨st, hst, hs⟩ | ⟨rfl, hnew, hchannel, hfresh⟩
  · rcases h.stays hstep hst with ⟨st₁, hst₁, hsame, hledger⟩
    rw [hst', Option.some.injEq] at hst₁
    subst hst₁
    rw [hsame]
    exact hledger
  · exact h.opened hstep hnew hfresh rfl hchannel

theorem Streaming.unopened_step (h : Streaming tr s) (hstep : Flows s a o s') {sender : Sender}
    (hsender : sender ∉ s'.streams) :
    sentTo (tr ++ [(a, o)]) sender = [] ∧ receivedFrom (tr ++ [(a, o)]) sender = [] := by
  have hnot : sender ∉ s.streams := by
    intro hmem
    rcases Finmap.mem_iff.mp hmem with ⟨st, hst⟩
    rcases h.stays hstep hst with ⟨st', hst', -, -⟩
    exact hsender (Finmap.mem_of_lookup_eq_some hst')
  rcases h.unopened sender hnot with ⟨hsent, hreceived⟩
  rw [sentTo_snoc, receivedFrom_snoc, hsent, hreceived]
  constructor
  · cases hitem : sentIn sender (a, o) with
    | none => rfl
    | some item =>
        rcases sentIn_cases hstep hitem with ⟨st, hst, -⟩
        exact absurd (Finmap.mem_of_lookup_eq_some hst) hnot
  · cases hitem : receivedIn sender (a, o) with
    | none => rfl
    | some item => exact absurd (receivedIn_stream hstep hitem) hnot

theorem Streaming.unhanded_step (h : Streaming tr s) (hstep : Flows s a o s') {sid : String}
    (hsid : sid ∉ s'.worker.tasks) : handedTo (tr ++ [(a, o)]) sid = [] := by
  rcases flows_steps hstep with ⟨wtr, hsteps, hhanded, -⟩
  have hnone : handedIn sid (a, o) = [] := by
    rw [← hhanded, List.eq_nil_iff_forall_not_mem]
    intro assignment hin
    exact hsid (tasks_of_handed hsteps hin)
  rw [handedTo_snoc, h.unhanded sid fun hin => hsid (tasks_steps hsteps hin), hnone]
  rfl

theorem Streaming.held_step (h : Streaming tr s) (hstep : Flows s a o s') {id sid : String}
    {r : AssignmentRecord} (hr : s'.worker.pending.assignments.lookup id = some r)
    (hsess : r.sessionId = some sid) : r.assignment ∈ handedTo (tr ++ [(a, o)]) sid := by
  rcases flows_steps hstep with ⟨wtr, hsteps, hhanded, -⟩
  rw [handedTo_snoc, ← hhanded, List.mem_append]
  rcases held_steps hsteps hr hsess with ⟨r₀, hr₀, hsess₀, hsame⟩ | hin
  · exact Or.inl (hsame ▸ h.held id r₀ sid hr₀ hsess₀)
  · exact Or.inr hin

theorem Streaming.cancels_step (h : Streaming tr s) (hstep : Flows s a o s') {k : Nat}
    {sender : Sender} {cancel : CancelExecution}
    (hk : s'.cancels.lookup k = some (sender, cancel)) :
    ∃ st, s'.streams.lookup sender = some st ∧ Covered (tr ++ [(a, o)]) st.session cancel := by
  have hcovered : ∃ st, s.streams.lookup sender = some st ∧
      Covered (tr ++ [(a, o)]) st.session cancel := by
    rcases cancels_of_flows hstep hk with hold | ⟨assignmentId, reason, rfl, rfl, hcancel⟩
    · rcases h.cancels k sender cancel hold with ⟨st, hst, hcov⟩
      exact ⟨st, hst, hcov.snoc _⟩
    · exact h.covered hcancel
  rcases hcovered with ⟨st, hst, hcov⟩
  rcases h.stays hstep hst with ⟨st', hst', hsame, -⟩
  exact ⟨st', hst', hsame ▸ hcov⟩

theorem Streaming.cancelled_step (h : Streaming tr s) (hstep : Flows s a o s') {sender : Sender}
    {st' : Stream} {cancel : CancelExecution} (hst' : s'.streams.lookup sender = some st')
    (hin : .ok (.cancelExecution cancel) ∈ sentTo (tr ++ [(a, o)]) sender) :
    Covered (tr ++ [(a, o)]) st'.session cancel := by
  rcases h.session_of_sent hstep hst' hin with ⟨st, hst, hs⟩
  rw [← hs]
  rw [sentTo_snoc, List.mem_append, Option.mem_toList] at hin
  rcases hin with hold | hnow
  · exact (h.cancelled sender st cancel hst hold).snoc _
  · rcases sentIn_cases hstep hnow with
      ⟨-, -, ⟨assignment, he⟩ | ⟨status, he, -⟩ | ⟨k, cancel', he, hk⟩⟩
    · cases he
    · cases he
    · cases he
      rcases h.cancels k sender cancel hk with ⟨st₁, hst₁, hcov⟩
      rw [hst, Option.some.injEq] at hst₁
      exact hst₁ ▸ hcov.snoc _

theorem Streaming.refused_step (h : Streaming tr s) (hstep : Flows s a o s') {sender : Sender}
    {st' : Stream} {status : Status} (hst' : s'.streams.lookup sender = some st')
    (hin : .error status ∈ sentTo (tr ++ [(a, o)]) sender) :
    RefusedWith (tr ++ [(a, o)]) st'.session status := by
  rcases h.session_of_sent hstep hst' hin with ⟨st, hst, hs⟩
  rw [← hs]
  rw [sentTo_snoc, List.mem_append, Option.mem_toList] at hin
  rcases hin with hold | hnow
  · exact (h.refused sender st status hst hold).snoc _
  · rcases sentIn_cases hstep hnow with
      ⟨st₁, hst₁, ⟨assignment, he⟩ | ⟨status', he, hstatus⟩ | ⟨k, cancel', he, hk⟩⟩
    · cases he
    · cases he
      rw [hst, Option.some.injEq] at hst₁
      subst hst₁
      exact (h.refusals _ status hstatus).snoc _
    · cases he

theorem Streaming.step (h : Streaming tr s) (hstep : Flows s a o s') :
    Streaming (tr ++ [(a, o)]) s' := by
  rcases flows_steps hstep with ⟨wtr, hsteps, -, -⟩
  exact {
    inv := inv_steps hsteps h.inv
    handlers := handlersRun_step h.handlers hstep
    one := h.one_step hstep
    tasks := fun _ _ hst' => h.tasks_step hstep hst'
    registered := fun _ _ hsender => h.registered_step hstep hsender
    ledger := fun _ _ hst' => h.ledger_step hstep hst'
    unopened := fun _ hsender => h.unopened_step hstep hsender
    unhanded := fun _ hsid => h.unhanded_step hstep hsid
    held := fun _ _ _ hr hsess => h.held_step hstep hr hsess
    cancels := fun _ _ _ hk => h.cancels_step hstep hk
    cancelled := fun _ _ _ hst' hin => h.cancelled_step hstep hst' hin
    refusals := by
      intro sid status hs
      rcases refusals_of_flows hstep hs with hold | ⟨hconc, rfl⟩
      · exact (h.refusals sid status hold).snoc _
      · exact ⟨(a, .handled (.error status)), by simp, hconc, rfl⟩
    refused := fun _ _ _ hst' hin => h.refused_step hstep hst' hin }

theorem streams_streaming {states : I32Enum ExecutionState} (h : (streams states).Run tr s) :
    Streaming tr s := by
  refine h.history (P := Streaming) ?_ ?_
  · refine ⟨inv_init, ?_, ?_, ?_, ?_, ?_, ?_, ?_, ?_, ?_, ?_, ?_, ?_⟩
    · intro sid hsid
      exact absurd hsid (Finmap.notMem_empty)
    · intro sender sender' st st' hst
      simp [streams] at hst
    all_goals simp [streams, worker, PendingState.empty, sentTo, receivedFrom, handedTo]
  · intro tr s a t b _ ih hs
    exact ih.step (step_flows hs)

/-! ## The end of a stream -/

/-- A task that has run `disconnect` is handed nothing. -/
theorem closed_steps {w w' : WorkerState} {wtr : List (Act × Answer)} {sid : String}
    (h : worker.Steps w wtr w') (hc : w.tasks.lookup sid = some .closed) :
    w'.tasks.lookup sid = some .closed ∧ wtr.flatMap (handedBy sid) = [] := by
  induction h with
  | refl => exact ⟨hc, rfl⟩
  | @snoc wtr₀ w₁ w₂ b answer _ hstep ih =>
      refine ⟨closed_stays hstep ih.1, ?_⟩
      rw [List.flatMap_append, ih.2, List.flatMap_singleton, List.nil_append,
        List.eq_nil_iff_forall_not_mem]
      intro assignment hin
      cases step_works hstep with
      | handed sid' id q r hpc hq hr =>
          have hs : sid' = sid := by
            by_contra hne
            simp [handedBy, hne] at hin
          subst hs
          rw [ih.1] at hpc
          cases hpc
      | moved b sid' pc pc' hb hpc hne hne' =>
          simp only [List.mem_cons, List.not_mem_nil, or_false] at hb
          rcases hb with rfl | rfl | rfl | rfl
          all_goals simp [handedBy] at hin
      | _ => simp [handedBy] at hin

/-- From a state where the session of a stream is closed, the stream stays and
nothing more is handed to the session. -/
theorem closed_run {states : I32Enum ExecutionState} {q : List (StreamAct × StreamOut)}
    {t : StreamState} (h : (streams states).Run tr s) (hq : (streams states).Steps s q t)
    {sender : Sender} {st : Stream} (hst : s.streams.lookup sender = some st)
    (hc : s.worker.tasks.lookup st.session = some .closed) :
    (∃ st', t.streams.lookup sender = some st' ∧ st'.session = st.session) ∧
      t.worker.tasks.lookup st.session = some .closed ∧ handedTo q st.session = [] := by
  induction hq with
  | refl => exact ⟨⟨st, hst, rfl⟩, hc, rfl⟩
  | @snoc q₀ t₀ t₁ a o hq₀ hstep ih =>
      rcases ih with ⟨⟨st₀, hst₀, hs₀⟩, hc₀, hnone⟩
      have hrun : (streams states).Run (tr ++ q₀) t₀ := Machine.Steps.trans h hq₀
      have hflow : Flows t₀ a o t₁ := step_flows hstep
      rcases (streams_streaming hrun).stays hflow hst₀ with ⟨st₁, hst₁, hs₁, -⟩
      rcases flows_steps hflow with ⟨wtr, hsteps, hhanded, -⟩
      have hclosed := closed_steps hsteps hc₀
      refine ⟨⟨st₁, hst₁, hs₁.trans hs₀⟩, hclosed.1, ?_⟩
      rw [handedTo_snoc, hnone, ← hhanded, hclosed.2]
      rfl

/-- When a stream ends, its session is over and has been handed what the
runtime received. -/
theorem Streaming.ended (h : Streaming tr s) {sender : Sender}
    (hstep : Flows s (.receive sender) .ended s') :
    ∃ st, s.streams.lookup sender = some st ∧ s' = s ∧
      s.worker.tasks.lookup st.session = some .closed ∧
      handedTo tr st.session = assignments (receivedFrom tr sender) := by
  cases hstep with
  | ended _ st hst hrecv hopen hnone =>
      have hclosed : s.worker.tasks.lookup st.session = some .closed := by
        by_contra hne
        exact hnone (Or.inl hne)
      have hbuffer : st.channel.buffer = [] := by
        unfold Channel.recv at hrecv
        rw [if_pos hopen] at hrecv
        cases hb : st.channel.buffer with
        | nil => rfl
        | cons x rest => simp [hb] at hrecv
      have hl := h.ledger sender st hst
      refine ⟨st, hst, rfl, hclosed, ?_⟩
      rw [hl.complete hopen, hl.carries.complete hopen, hbuffer, List.append_nil,
        sending_of_lookup hclosed (by simp), List.append_nil]

end Streaming

/-! ## The law -/

/-- What holds of the stream behind `sender`. -/
structure Conveys (tr : List (StreamAct × StreamOut)) (s : StreamState) (sender : Sender)
    (st : Stream) : Prop where
  order : assignments (receivedFrom tr sender) <+: handedTo tr st.session
  complete : st.channel.receiving → handedTo tr st.session =
    assignments (receivedFrom tr sender) ++ assignments st.channel.buffer ++
      sending s.worker st.session
  bounded : st.channel.buffer.length ≤ 32
  status : ∀ u status v, receivedFrom tr sender = u ++ .error status :: v →
    Leaving s.worker st.session ∧ RefusedWith tr st.session status ∧ ∀ x ∈ v, isCancel x = true
  cancel : ∀ cancel, .ok (.cancelExecution cancel) ∈ receivedFrom tr sender →
    Covered tr st.session cancel
  ended : (.receive sender, .ended) ∈ tr → s.worker.tasks.lookup st.session = some .closed ∧
    handedTo tr st.session = assignments (receivedFrom tr sender)

/-- **Command streams.** Every stream of every reachable state conveys what its
session was handed. -/
theorem streams_convey {states : I32Enum ExecutionState} {tr : List (StreamAct × StreamOut)}
    {s : StreamState} (h : (streams states).Run tr s) {sender : Sender} {st : Stream}
    (hst : s.streams.lookup sender = some st) : Conveys tr s sender st := by
  have hstream := streams_streaming h
  have hl := hstream.ledger sender st hst
  have hreceived : receivedFrom tr sender <+: sentTo tr sender := hl.carries.order
  have horder : assignments (receivedFrom tr sender) <+: handedTo tr st.session :=
    (assignments_mono hreceived).trans hl.order
  refine ⟨horder, ?_, ?_, ?_, ?_, ?_⟩
  · intro hopen
    rw [hl.complete hopen, hl.carries.complete hopen, assignments_append]
  · rw [← hl.capacity]
    exact hl.carries.bounded
  · intro u status v hu
    rcases hreceived with ⟨rest, hrest⟩
    rw [hu, List.append_assoc, List.cons_append] at hrest
    rcases hl.status u status (v ++ rest) hrest.symm with ⟨hleaving, hcancels⟩
    refine ⟨hleaving, hstream.refused sender st status hst ?_, ?_⟩
    · rw [← hrest]
      simp
    · intro x hx
      exact hcancels x (List.mem_append_left _ hx)
  · intro cancel hin
    exact hstream.cancelled sender st cancel hst (hreceived.subset hin)
  · intro hin
    rcases List.append_of_mem hin with ⟨p, q, rfl⟩
    rcases Machine.Steps.mid h with ⟨t, t', hp, hstep, hq⟩
    have hflow : t.step states (.receive sender) = some (t', .ended) := hstep
    rcases (streams_streaming hp).ended (step_flows hflow) with ⟨st₀, hst₀, rfl, hclosed, hall⟩
    rcases closed_run (Machine.Run.snoc hp hstep) hq hst₀ hclosed with
      ⟨⟨st₁, hst₁, hs₁⟩, hclosed', hnone⟩
    rw [hst, Option.some.injEq] at hst₁
    subst hst₁
    rw [hs₁]
    refine ⟨hclosed', ?_⟩
    -- nothing was handed out after the end
    have hsame : handedTo (p ++ (.receive sender, .ended) :: q) st₀.session =
        handedTo p st₀.session := by
      simp only [handedTo, List.flatMap_append, List.flatMap_cons] at hnone ⊢
      rw [hnone]
      simp [handedIn]
    have hfirst : assignments (receivedFrom p sender) <+:
        assignments (receivedFrom (p ++ (.receive sender, .ended) :: q) sender) := by
      refine assignments_mono ?_
      unfold receivedFrom
      rw [List.filterMap_append]
      exact List.prefix_append _ _
    rw [hs₁, hsame, hall] at horder
    rw [hsame, hall]
    exact hfirst.eq_of_length_le horder.length_le

/-- An assignment is cancelled before its session's task has sent it: the
cancellation overtakes it. -/
def overtaken : List StreamAct :=
  [.plain (.enqueue (plainAssignment "a" "x" "j")), .connect "s" ⟨0⟩, .plain (.nextFor "s"),
   .cancel 0 "a" (some "late"), .cancelSend 0, .deliver ⟨0⟩, .receive ⟨0⟩, .receive ⟨0⟩]

theorem streams_convey_overtaken : ∃ tr s st,
    (streams numberedStates).Run tr s ∧ s.streams.lookup ⟨0⟩ = some st ∧
    receivedFrom tr ⟨0⟩ = [.ok (.cancelExecution ⟨"a", "x", some "late"⟩),
      .ok (.assignExecution (plainAssignment "a" "x" "j"))] ∧
    Conveys tr s ⟨0⟩ st := by
  rcases Machine.run_of_exec (streams numberedStates) overtaken
    (P := fun tr s => (s.streams.lookup ⟨0⟩).isSome ∧
      receivedFrom tr ⟨0⟩ = [.ok (.cancelExecution ⟨"a", "x", some "late"⟩),
        .ok (.assignExecution (plainAssignment "a" "x" "j"))])
    (by decide +kernel) with ⟨tr, s, hrun, -, hsome, hreceived⟩
  rcases Option.isSome_iff_exists.mp hsome with ⟨st, hst⟩
  exact ⟨tr, s, st, hrun, hst, hreceived, streams_convey hrun hst⟩

end ThreadWeave.Worker
