import Pqsnet.Session.References

/-! Calls that send at the same time share the slots of the send table among them. -/

namespace Pqsnet.Session

open Checked Outcome SessionInner

variable {T : Type} {P : Allows} {s s' : SessionInner T} {U U' : Multiset Token} {i k docNo : ℕ}

namespace Place

/-- A place that a call comes to if it has to give back what it added to the number of documents. -/
def isFull : Place → Bool
  | full => true
  | _ => false

/-- A place of a call that was granted a slot. -/
def isGranted : Place → Bool
  | limited => true
  | weigh _ => true
  | heavy => true
  | search => true
  | lock _ => true
  | _ => false

/-- A place behind all limits, in the loop that looks for a slot. -/
def inLoop : Place → Bool
  | search => true
  | lock _ => true
  | _ => false

lemma isGranted_of_inLoop {p : Place} (h : p.inLoop) : p.isGranted := by
  cases p <;> first | rfl | cases h

lemma isLive_of_isFull {p : Place} (h : p.isFull) : p.isLive := by
  cases p <;> first | rfl | cases h

end Place

namespace SessionInner

/-- The document of each slot of the send table, and whether it is still there. -/
def slotDocs (s : SessionInner T) : List (ℕ × Bool) := s.sendTable.map fun e => (e.docNo, e.doc.isSome)

/-- The slots that cannot be taken. -/
def occupied (s : SessionInner T) : ℕ := s.sendTable.countP fun e => e.channel.isSome || e.doc.isSome

/-- A slot that cannot be taken has a document that belongs there. -/
structure Housed (s : SessionInner T) : Prop where
  channel : ∀ (i : ℕ) (e : SendDocMutable), s.sendTable[i]? = some e → e.channel.isSome → e.doc.isSome
  doc : ∀ (i : ℕ) (e : SendDocMutable), s.sendTable[i]? = some e → e.doc.isSome → s.isSending e.docNo ∧ i = s.sendIdx e.docNo

lemma Housed.occupied_eq (h : s.Housed) : s.occupied = s.slotDocs.countP (·.2) := by
  rw [occupied, slotDocs, List.countP_map]
  refine List.countP_congr fun e he => ?_
  obtain ⟨i, he⟩ := List.getElem?_of_mem he
  have hdoc := h.channel i e he
  simp only [Bool.or_eq_true, Function.comp_apply]
  exact ⟨fun h => h.elim hdoc id, .inr⟩

/-- The document is in its slot. -/
def Holding (s : SessionInner T) (docNo : ℕ) : Prop := ∃ e, s.sendTable[s.sendIdx docNo]? = some e ∧ e.docNo = docNo ∧ e.doc.isSome

end SessionInner

namespace Change

lemma housed (h : Change P s s' U U') (hinv : s.Housed) : s'.Housed := by
  refine ⟨fun i e' he' hopen' => ?_, fun i e' he' hdoc' => ?_⟩
  · obtain ⟨e, he, hslot⟩ := h.sendSlot he'
    cases hslot with
    | kept hno hdoc hopen hflag =>
      rw [hdoc]
      exact hinv.channel i e he (hopen hopen')
    | opened hP hside hi hfree hdoc hflag => exact hdoc
  · rw [h.isSending, h.sendIdx]
    obtain ⟨e, he, hslot⟩ := h.sendSlot he'
    cases hslot with
    | kept hno hdoc hopen hflag =>
      rw [hno]
      exact hinv.doc i e he (hdoc ▸ hdoc')
    | opened hP hside hi hfree hdoc hflag => exact ⟨hside, hi⟩

lemma holding (h : Change P s s' U U') (hinv : s.Holding docNo) : s'.Holding docNo := by
  obtain ⟨e, he, hno, hdoc⟩ := hinv
  obtain ⟨e', he', hno', hdoc', -⟩ := h.kept he hdoc
  exact ⟨e', by rwa [h.sendIdx], hno'.trans hno, hdoc'⟩

lemma slotDocs (h : Change P s s' U U') (hP : ¬ P.send) : s'.slotDocs = s.slotDocs := by
  apply List.ext_getElem?
  intro i
  rw [SessionInner.slotDocs, SessionInner.slotDocs, List.getElem?_map, List.getElem?_map]
  cases he' : s'.sendTable[i]? with
  | none =>
    rw [List.getElem?_eq_none_iff, h.shape.2.2] at he'
    rw [List.getElem?_eq_none he']
  | some e' =>
    obtain ⟨e, he, hslot⟩ := h.sendSlot he'
    cases hslot with
    | kept hno hdoc hopen hflag => rw [he, Option.map_some, Option.map_some, hno, hdoc]
    | opened hP' => exact absurd hP' hP

end Change

namespace Machine

variable {C : Machine T → ℕ → Prop} {m m' : Machine T} {call : Call}

/-- The calls at places of one kind. -/
def callsAt (m : Machine T) (p : Place → Bool) : ℕ := m.calls.countP fun call => p call.place

/-- The send table is empty, and nothing was counted. -/
structure Fresh (m : Machine T) : Prop extends m.Initial where
  empty : ∀ e ∈ m.session.sendTable, e.channel = none ∧ e.doc = none
  total : m.session.sendTotal = 0

/-- How the number of documents is made up: of slots that are occupied, calls that were granted one, calls that have to
give it back, and documents that were refused and counted all the same. -/
structure Allotted (m : Machine T) : Prop where
  room : 0 < m.callsAt Place.isLive → m.callsAt Place.isLive + m.session.sendTable.length < 2 ^ 64
  held : m.session.slotDocs.countP (·.2) + m.callsAt Place.isGranted + m.callsAt Place.isFull ≤ m.session.sendTotal
  limit : m.session.sendTotal ≤ m.session.sendTable.length - 1 + m.callsAt Place.isFull

/-- What is known of the numbers that were drawn and of those that were given to a caller. -/
structure Recorded (m : Machine T) : Prop where
  given : ∀ docNo ∈ m.given, m.session.Holding docNo
  nodup : m.given.Nodup
  drawn : (∀ docNo ∈ m.drawn, docNo < 2 ^ 62) → ∀ docNo ∈ m.drawn, docNo < m.session.sendDocNo

namespace Fresh

lemma housed (hm : m.Fresh) : m.session.Housed := by
  refine ⟨fun i e he hopen => ?_, fun i e he hdoc => ?_⟩
  · rw [(hm.empty e (List.mem_of_getElem? he)).1] at hopen
    cases hopen
  · rw [(hm.empty e (List.mem_of_getElem? he)).2] at hdoc
    cases hdoc

lemma allotted (hm : m.Fresh) : m.Allotted := by
  have hcalls (p : Place → Bool) : m.callsAt p = 0 := by
    rw [callsAt, hm.idle.2.1]
    rfl
  have hnone : m.session.slotDocs.countP (·.2) = 0 := by
    rw [slotDocs, List.countP_map, List.countP_eq_zero]
    intro e he
    simp [(hm.empty e he).2]
  refine ⟨fun hpos => ?_, ?_, ?_⟩
  · rw [hcalls] at hpos
    cases hpos
  · rw [hnone, hcalls, hcalls]
    exact Nat.zero_le _
  · rw [hm.total]
    exact Nat.zero_le _

lemma recorded (hm : m.Fresh) : m.Recorded := by
  obtain ⟨-, -, -, hdrawn, hgiven, -⟩ := hm.idle
  refine ⟨fun docNo h => ?_, ?_, fun _ docNo h => ?_⟩
  · rw [hgiven] at h
    cases h
  · rw [hgiven]
    exact List.nodup_nil
  · rw [hdrawn] at h
    cases h

end Fresh

section Advance

variable {next : Call.Next} {x : SessionInner T}

lemma callsAt_advance (hk : m.calls[k]? = some call) (p : Place → Bool) :
    (m.advance k call next x).callsAt p + (p call.place).toNat = m.callsAt p + (p (reached next)).toNat := by
  rw [callsAt, calls_advance]
  exact countP_set (fun call => p call.place) hk _

lemma drawn_advance : (m.advance k call next x).drawn = m.drawn ++ draws next := by
  cases next with
  | inl place => rfl
  | inr r =>
    change (answer _ call r).drawn = m.drawn ++ []
    unfold answer
    split
    · split <;> rfl
    · split <;> rfl

lemma given_advance : (m.advance k call next x).given = m.given ++
    match next with
    | .inr (.ok docNo) => [docNo]
    | _ => [] := by
  cases next with
  | inl place => exact (List.append_nil _).symm
  | inr r =>
    change (answer _ call r).given = _
    unfold answer
    split
    · split <;> rfl
    · split <;> exact (List.append_nil _).symm

lemma isFull_lt_isLive (hk : m.calls[k]? = some call) (hlive : call.place.isLive) (hfull : call.place.isFull = false) :
    m.callsAt Place.isFull < m.callsAt Place.isLive := by
  have hmono : (m.calls.set k { call with place := .full }).countP (fun call => call.place.isFull) ≤
      (m.calls.set k { call with place := .full }).countP (fun call => call.place.isLive) :=
    List.countP_mono_left fun _ _ h => Place.isLive_of_isFull h
  have hset (p : Place → Bool) := countP_set (fun call : Call => p call.place) hk { call with place := .full }
  have h₁ := hset Place.isFull
  have h₂ := hset Place.isLive
  rw [hfull] at h₁
  rw [hlive] at h₂
  change _ + 0 = m.callsAt Place.isFull + 1 at h₁
  change _ + 1 = m.callsAt Place.isLive + 1 at h₂
  omega

end Advance

lemma Allotted.quiet (hinv : m.Allotted) (hcalls : m'.calls = m.calls) (htotal : m'.session.sendTotal = m.session.sendTotal)
    (hdocs : m'.session.slotDocs = m.session.slotDocs) : m'.Allotted := by
  have hlen : m'.session.sendTable.length = m.session.sendTable.length := by
    have := congrArg List.length hdocs
    rwa [slotDocs, slotDocs, List.length_map, List.length_map] at this
  have hat (p : Place → Bool) : m'.callsAt p = m.callsAt p := by rw [callsAt, callsAt, hcalls]
  refine ⟨?_, ?_, ?_⟩
  · rw [hat, hlen]
    exact hinv.room
  · rw [hat, hat, hdocs, htotal]
    exact hinv.held
  · rw [hat, hlen, htotal]
    exact hinv.limit

lemma Allotted.started (hinv : m.Allotted) (hplace : call.place = .start) (hroom : m.HasRoom) (hs : m'.session = m.session)
    (hcalls : m'.calls = m.calls ++ [call]) : m'.Allotted := by
  have hat (p : Place → Bool) : m'.callsAt p = m.callsAt p + (p .start).toNat := by
    rw [callsAt, hcalls, List.countP_append, List.countP_singleton, hplace]
    cases p .start <;> rfl
  refine ⟨fun _ => ?_, ?_, ?_⟩
  · rw [hat, hs, callsAt, List.countP_eq_length_filter]
    exact hroom
  · rw [hat, hat, hs]
    exact hinv.held
  · rw [hat, hs]
    exact hinv.limit

namespace Allotted

variable {next : Call.Next} {x : SessionInner T}

lemma total_lt (hinv : m.Allotted) (hk : m.calls[k]? = some call) (hlive : call.place.isLive) :
    m.session.sendTotal + (!call.place.isFull).toNat < 2 ^ 64 := by
  have hpos : 0 < m.callsAt Place.isLive := List.countP_pos_iff.mpr ⟨call, List.mem_of_getElem? hk, hlive⟩
  have hroom := hinv.room hpos
  have hlimit := hinv.limit
  cases hfull : call.place.isFull with
  | false =>
    have := isFull_lt_isLive hk hlive hfull
    change m.session.sendTotal + 1 < 2 ^ 64
    omega
  | true =>
    have hle : m.callsAt Place.isFull ≤ m.callsAt Place.isLive := List.countP_mono_left fun _ _ h => Place.isLive_of_isFull h
    change m.session.sendTotal < 2 ^ 64
    omega

lemma advance {p q : Place} {d n : ℕ} (hinv : m.Allotted) (hk : m.calls[k]? = some call) (hp : call.place = p)
    (hq : reached next = q) (hlive : p.isLive) (hlen : x.sendTable.length = m.session.sendTable.length)
    (hd : x.slotDocs.countP (·.2) = d) (hn : x.sendTotal = n)
    (hcounts : d + q.isGranted.toNat + q.isFull.toNat + m.session.sendTotal ≤
        m.session.slotDocs.countP (·.2) + p.isGranted.toNat + p.isFull.toNat + n ∧
      n + p.isFull.toNat ≤ m.session.sendTable.length - 1 + m.callsAt Place.isFull + q.isFull.toNat) :
    (m.advance k call next x).Allotted := by
  have hat (f : Place → Bool) : (m.advance k call next x).callsAt f + (f p).toNat = m.callsAt f + (f q).toNat := by
    rw [← hp, ← hq]
    exact callsAt_advance hk f
  have hlives := hat Place.isLive
  have hgranted := hat Place.isGranted
  have hfull := hat Place.isFull
  have hle := Bool.toNat_le q.isLive
  have hpos : 0 < m.callsAt Place.isLive := List.countP_pos_iff.mpr ⟨call, List.mem_of_getElem? hk, hp ▸ hlive⟩
  have hroom := hinv.room hpos
  have hbefore := hinv.held
  rw [hlive, Bool.toNat_true] at hlives
  refine ⟨fun _ => ?_, ?_, ?_⟩
  · rw [session_advance, hlen]
    omega
  · rw [session_advance, hd, hn]
    omega
  · rw [session_advance, hlen, hn]
    omega

lemma keep {p q : Place} (hinv : m.Allotted) (hk : m.calls[k]? = some call) (hp : call.place = p) (hq : reached next = q)
    (hlive : p.isLive) (hfull : p.isFull = false) (ht : x.sendTable = m.session.sendTable) (hn : x.sendTotal = m.session.sendTotal)
    (hpq : q.isGranted.toNat + q.isFull.toNat ≤ p.isGranted.toNat) : (m.advance k call next x).Allotted := by
  have hlimit := hinv.limit
  have hd : x.slotDocs.countP (·.2) = m.session.slotDocs.countP (·.2) := by rw [slotDocs, slotDocs, ht]
  refine hinv.advance hk hp hq hlive (by rw [ht]) hd hn ?_
  rw [hfull, Bool.toNat_false]
  omega

lemma called (hinv : m.Allotted) (hk : m.calls[k]? = some call) (h : call.Accessed m.session next x) :
    (m.advance k call next x).Allotted := by
  have htotal := hinv.total_lt hk
  have hheld := hinv.held
  have hlimit := hinv.limit
  cases h with
  | enter hp =>
    rw [hp] at htotal
    have hlt : m.session.sendTotal + 1 < 2 ^ 64 := htotal rfl
    have hn : Call.fetchAdd m.session.sendTotal 1 = m.session.sendTotal + 1 := Nat.mod_eq_of_lt hlt
    by_cases hfull : m.session.sendTotal + 1 ≥ m.session.sendTable.length
    · refine hinv.advance hk hp (q := .full) (d := m.session.slotDocs.countP (·.2)) ?_ rfl rfl rfl hn ?_
      · rw [reached, Call.within, if_pos hlt, if_pos hfull]
      · change _ + 0 + 1 + _ ≤ _ + 0 + 0 + _ ∧ _ + 0 ≤ _ + 1
        omega
    · refine hinv.advance hk hp (q := .limited) (d := m.session.slotDocs.countP (·.2)) ?_ rfl rfl rfl hn ?_
      · rw [reached, Call.within, if_pos hlt, if_neg hfull]
      · change _ + 1 + 0 + _ ≤ _ + 0 + 0 + _ ∧ _ + 0 ≤ _ + 0
        omega
  | undo hp =>
    rw [hp] at htotal
    have hlt : m.session.sendTotal < 2 ^ 64 := htotal rfl
    have hpos : 0 < m.callsAt Place.isFull := List.countP_pos_iff.mpr ⟨call, List.mem_of_getElem? hk, by rw [hp]; rfl⟩
    have hn : fetchSub m.session.sendTotal 1 = m.session.sendTotal - 1 := Books.fetchSub_eq (by omega) hlt
    refine hinv.advance hk hp rfl rfl rfl (d := m.session.slotDocs.countP (·.2)) (by rw [slotDocs, slotDocs]) hn ?_
    change _ + 0 + 0 + _ ≤ _ + 0 + 1 + _ ∧ _ + 1 ≤ _ + 0
    omega
  | refuse hp he => exact hinv.keep hk hp rfl rfl rfl rfl rfl (Nat.zero_le 1)
  | accept hp => exact hinv.keep hk hp rfl rfl rfl rfl rfl le_rfl
  | weigh hp =>
    refine hinv.keep hk hp rfl rfl rfl rfl rfl ?_
    simp only [reached, Call.within]
    split_ifs
    · exact le_rfl
    · exact le_rfl
    · exact Nat.zero_le 1
  | unload hp => exact hinv.keep hk hp rfl rfl rfl rfl rfl le_rfl
  | draw hp => exact hinv.keep hk hp rfl rfl rfl rfl rfl le_rfl
  | skip hp he hbusy => exact hinv.keep hk hp rfl rfl rfl rfl rfl le_rfl
  | @take docNo e hp he hfree =>
    -- the call gives its grant for the slot
    have hset := countP_set (fun e : SendDocMutable => e.doc.isSome) he
      ⟨docNo, false, some ⟨docNo, call.hasSpecialParent, false, 0, call.doc⟩, some ⟨1, [], call.replyBuffer⟩⟩
    have hnone : e.doc.isSome = false := Bool.not_eq_true _ ▸ (not_or.mp hfree).2
    rw [hnone] at hset
    refine hinv.advance hk hp rfl rfl (List.length_set ..) (d := m.session.slotDocs.countP (·.2) + 1)
      (n := m.session.sendTotal) ?_ rfl ?_
    · rw [slotDocs, slotDocs, List.countP_map, List.countP_map]
      exact hset
    · change _ + 0 + 0 + _ ≤ _ + 1 + 0 + _ ∧ _ + 0 ≤ _ + 0
      omega

lemma moved (hinv : m.Allotted) (h : Moved C m m') : m'.Allotted := by
  cases h with
  | quiet hsend hdrop h hcalls hrecords =>
    refine hinv.quiet hcalls (Changes.counters h hsend).1 ?_
    exact Changes.keeps (Q := fun x => x.slotDocs = m.session.slotDocs) h (fun hc hq => (hc.slotDocs hsend).trans hq) rfl
  | started hplace hfuture hroom hs hhands hcalls hrecords => exact hinv.started hplace hroom hs hcalls
  | called hk h hm =>
    rw [hm]
    exact hinv.called hk (Call.accessed h)

end Allotted

namespace Recorded

lemma called {next : Call.Next} {x : SessionInner T} (hinv : m.Recorded) (hkept : ∀ docNo, m.session.Holding docNo → x.Holding docNo)
    (h : call.Accessed m.session next x) : (m.advance k call next x).Recorded := by
  have hsame (hgiven : (m.advance k call next x).given = m.given) (hdrawn : (m.advance k call next x).drawn = m.drawn)
      (hnext : x.sendDocNo = m.session.sendDocNo) : (m.advance k call next x).Recorded := by
    refine ⟨?_, ?_, ?_⟩
    · rw [hgiven, session_advance]
      exact fun docNo h => hkept docNo (hinv.given docNo h)
    · rw [hgiven]
      exact hinv.nodup
    · rw [hdrawn, session_advance, hnext]
      exact hinv.drawn
  cases h with
  | enter | weigh =>
    refine hsame (given_advance.trans (List.append_nil _)) ?_ rfl
    rw [drawn_advance, Call.within]
    split_ifs <;> exact List.append_nil _
  | undo | refuse | accept | unload | skip =>
    exact hsame (given_advance.trans (List.append_nil _)) (drawn_advance.trans (List.append_nil _)) rfl
  | draw hp =>
    refine ⟨?_, ?_, ?_⟩
    · rw [given_advance, session_advance, List.append_nil]
      exact fun docNo h => hkept docNo (hinv.given docNo h)
    · rw [given_advance, List.append_nil]
      exact hinv.nodup
    · -- the next number is two more than this one, which is more than all before it
      rw [drawn_advance, session_advance, draws, List.forall_mem_append, List.forall_mem_append, List.forall_mem_singleton,
        List.forall_mem_singleton]
      rintro ⟨hold, hnew⟩
      have hadd : Call.fetchAdd m.session.sendDocNo 2 = m.session.sendDocNo + 2 := Nat.mod_eq_of_lt (by omega)
      change (∀ docNo ∈ m.drawn, docNo < Call.fetchAdd m.session.sendDocNo 2) ∧ _ < Call.fetchAdd m.session.sendDocNo 2
      rw [hadd]
      exact ⟨fun docNo h => (hinv.drawn hold docNo h).trans (by omega), by omega⟩
  | @take docNo e hp he hfree =>
    have hmem : docNo ∉ m.given := fun h => by
      obtain ⟨e', he', -, hdoc⟩ := hinv.given docNo h
      cases he.symm.trans he'
      exact hfree (.inr hdoc)
    have hidx (e' : SendDocMutable) : (m.session.setSend (m.session.sendIdx docNo) e').sendIdx docNo = m.session.sendIdx docNo :=
      sendIdx_of_eq (List.length_set ..) docNo
    refine ⟨?_, ?_, ?_⟩
    · rw [given_advance, session_advance, List.forall_mem_append, List.forall_mem_singleton]
      refine ⟨fun docNo h => hkept docNo (hinv.given docNo h),
        ⟨docNo, false, some ⟨docNo, call.hasSpecialParent, false, 0, call.doc⟩, some ⟨1, [], call.replyBuffer⟩⟩, ?_, rfl, rfl⟩
      rw [hidx]
      exact getElem?_set_of_getElem? he _
    · rw [given_advance]
      exact List.nodup_append.mpr ⟨hinv.nodup, List.nodup_singleton _, fun a ha b hb => by
        rw [List.mem_singleton.mp hb]
        exact fun h => hmem (h ▸ ha)⟩
    · rw [drawn_advance, session_advance]
      change (∀ docNo ∈ m.drawn ++ [], _) → ∀ docNo ∈ m.drawn ++ [], _
      rw [List.append_nil]
      exact hinv.drawn

lemma moved (hinv : m.Recorded) (hm : m.Sound) (h : Moved C m m') : m'.Recorded := by
  obtain ⟨P, -, hturn⟩ := h.turn hm
  have hkept (docNo : ℕ) (hd : m.session.Holding docNo) : m'.session.Holding docNo :=
    Changes.keeps (Q := fun x => x.Holding docNo) hturn (fun hc hq => hc.holding hq) hd
  cases h with
  | quiet hsend hdrop h hcalls hrecords =>
    refine ⟨?_, ?_, ?_⟩
    · rw [hrecords.2]
      exact fun docNo h => hkept docNo (hinv.given docNo h)
    · rw [hrecords.2]
      exact hinv.nodup
    · rw [hrecords.1, (Changes.counters h hsend).2]
      exact hinv.drawn
  | started hplace hfuture hroom hs hhands hcalls hrecords =>
    refine ⟨?_, ?_, ?_⟩
    · rw [hrecords.2, hs]
      exact hinv.given
    · rw [hrecords.2]
      exact hinv.nodup
    · rw [hrecords.1, hs]
      exact hinv.drawn
  | called hk h hm' =>
    have hs : m'.session = _ := hm' ▸ session_advance _
    rw [hs] at hkept
    rw [hm']
    exact hinv.called hkept (Call.accessed h)

end Recorded

lemma Run.allocated (h : Run C m m') (hm : m.Fresh) : m'.Sound ∧ m'.session.Housed ∧ m'.Allotted ∧ m'.Recorded := by
  induction h with
  | refl => exact ⟨hm.sound, hm.housed, hm.allotted, hm.recorded⟩
  | tail hrun hstep ih =>
    obtain ⟨hsound, hhoused, hallotted, hrecorded⟩ := ih
    have hmoved := hstep.moved hsound.coherent
    obtain ⟨P, -, hturn⟩ := hmoved.turn hsound
    exact ⟨hmoved.sound hsound, Changes.keeps hturn (fun hc hq => hc.housed hq) hhoused, hallotted.moved hmoved,
      hrecorded.moved hsound hmoved⟩

/-- The call at index `k` alone takes `n` steps. -/
def runAlone (k : ℕ) : ℕ → Machine T → Outcome Empty (Machine T)
  | 0, m => .ok m
  | n + 1, m =>
    match m.calls[k]? with
    | some call => do
      let (next, s) ← call.step m.session
      runAlone k n (m.advance k call next s)
    | none => .panic .index

/-- A number was drawn for nothing: its slot was not free. -/
def again (m : Machine T) : Machine T :=
  { m with
    session := { m.session with sendDocNo := m.session.sendDocNo + 2 }
    drawn := m.drawn ++ [m.session.sendDocNo] }

section Alone

variable {e : SendDocMutable}

lemma runAlone_draw (hk : m.calls[k]? = some call) (hp : call.place = .search) (hlt : m.session.sendDocNo + 2 < 2 ^ 64) (n : ℕ) :
    runAlone k (n + 1) m = runAlone k n { m.again with calls := m.calls.set k { call with place := .lock m.session.sendDocNo } } := by
  have hstep : (call.step m.session : Outcome Empty _) = .ok (.inl (.lock m.session.sendDocNo), m.again.session) := by
    rw [Call.step, hp]
    change Except.ok (_, { m.session with sendDocNo := (m.session.sendDocNo + 2) % 2 ^ 64 }) = _
    rw [Nat.mod_eq_of_lt hlt]
    rfl
  rw [runAlone, hk]
  dsimp only
  rw [hstep, ok_bind]
  rfl

lemma step_lock {ε : Type} (call : Call) (hp : call.place = .lock docNo) (he : s.sendTable[s.sendIdx docNo]? = some e) :
    (call.step s : Outcome ε _) = if e.channel.isSome ∨ e.doc.isSome then .ok (.inl .search, s)
      else .ok (.inr (.ok docNo), s.setSend (s.sendIdx docNo)
        ⟨docNo, false, some ⟨docNo, call.hasSpecialParent, false, 0, call.doc⟩, some ⟨1, [], call.replyBuffer⟩⟩) := by
  obtain ⟨hslot, hentry⟩ := slot_of_getElem? (ε := ε) he
  rw [Call.step, hp]
  dsimp only
  rw [hslot, ok_bind, hentry, ok_bind]
  rfl

lemma runAlone_busy (hk : m.calls[k]? = some call) (hp : call.place = .search) (hlt : m.session.sendDocNo + 2 < 2 ^ 64)
    (he : m.session.sendTable[m.session.sendIdx m.session.sendDocNo]? = some e) (hbusy : e.channel.isSome ∨ e.doc.isSome) (n : ℕ) :
    runAlone k (n + 2) m = runAlone k n m.again := by
  have hstep := step_lock (ε := Empty) (s := m.again.session) { call with place := .lock m.session.sendDocNo } rfl he
  have hcalls : (m.calls.set k { call with place := .lock m.session.sendDocNo }).set k { call with place := .search } = m.calls := by
    rw [List.set_set, ← hp]
    exact set_of_getElem? hk
  rw [runAlone_draw hk hp hlt, runAlone]
  dsimp only
  rw [getElem?_set_of_getElem? hk]
  dsimp only
  rw [hstep, if_pos hbusy, ok_bind]
  dsimp only [advance, draws]
  rw [hcalls, List.append_nil]
  rfl

lemma runAlone_free (hk : m.calls[k]? = some call) (hp : call.place = .search) (hlt : m.session.sendDocNo + 2 < 2 ^ 64)
    (he : m.session.sendTable[m.session.sendIdx m.session.sendDocNo]? = some e) (hfree : ¬ (e.channel.isSome ∨ e.doc.isSome)) :
    ∃ m', runAlone k 2 m = .ok m' ∧ m'.calls[k]? = some { call with place := .returned } ∧
      m'.given = m.given ++ [m.session.sendDocNo] ∧ m'.drawn = m.drawn ++ [m.session.sendDocNo] := by
  have hstep := step_lock (ε := Empty) (s := m.again.session) { call with place := .lock m.session.sendDocNo } rfl he
  rw [runAlone_draw hk hp hlt, runAlone]
  dsimp only
  rw [getElem?_set_of_getElem? hk]
  dsimp only
  rw [hstep, if_neg hfree, ok_bind, runAlone]
  refine ⟨_, rfl, ?_, ?_, ?_⟩
  · rw [calls_advance]
    exact getElem?_set_of_getElem? (getElem?_set_of_getElem? hk _) _
  · rw [given_advance]
    rfl
  · rw [drawn_advance]
    exact List.append_nil _

lemma runAlone_leaves {t : ℕ} (hk : m.calls[k]? = some call) (hp : call.place = .search) (hlt : m.session.sendDocNo + 2 * t + 2 < 2 ^ 64)
    (he : m.session.sendTable[(m.session.sendDocNo / 2 + t) % m.session.sendTable.length]? = some e)
    (hfree : ¬ (e.channel.isSome ∨ e.doc.isSome)) :
    ∃ n ≤ t, ∃ m' earlier, runAlone k (2 * (n + 1)) m = .ok m' ∧ m'.calls[k]? = some { call with place := .returned } ∧
      m'.given = m.given ++ [m.session.sendDocNo + 2 * n] ∧ m'.drawn = m.drawn ++ earlier ++ [m.session.sendDocNo + 2 * n] ∧
      ∀ docNo ∈ earlier, docNo < m.session.sendDocNo + 2 * n := by
  induction t generalizing m with
  | zero =>
    have hidx : m.session.sendIdx m.session.sendDocNo = (m.session.sendDocNo / 2 + 0) % m.session.sendTable.length := by
      rw [sendIdx, Nat.shiftRight_one, Nat.add_zero]
    rw [← hidx] at he
    obtain ⟨m', hrun, hcall, hgiven, hdrawn⟩ := runAlone_free hk hp hlt he hfree
    exact ⟨0, le_rfl, m', [], hrun, hcall, hgiven, by rw [hdrawn, List.append_nil]; rfl, by simp⟩
  | succ t ih =>
    have hpos : 0 < m.session.sendTable.length := Nat.zero_lt_of_lt (List.getElem?_eq_some_iff.mp he).1
    have hslot : m.session.sendIdx m.session.sendDocNo < m.session.sendTable.length := Nat.mod_lt _ hpos
    obtain ⟨x, hx⟩ : ∃ x, m.session.sendTable[m.session.sendIdx m.session.sendDocNo]? = some x := ⟨_, List.getElem?_eq_getElem hslot⟩
    by_cases hbusy : x.channel.isSome ∨ x.doc.isSome
    · have hagain : m.again.session.sendDocNo = m.session.sendDocNo + 2 := rfl
      have hnext : m.session.sendDocNo / 2 + (t + 1) = m.again.session.sendDocNo / 2 + t := by omega
      rw [hnext] at he
      obtain ⟨n, hn, m', earlier, hrun, hcall, hgiven, hdrawn, hearlier⟩ := ih (m := m.again) hk (by omega) he
      have hno : m.again.session.sendDocNo + 2 * n = m.session.sendDocNo + 2 * (n + 1) := by omega
      rw [hno] at hgiven hdrawn hearlier
      refine ⟨n + 1, by omega, m', m.session.sendDocNo :: earlier, ?_, hcall, hgiven, ?_, ?_⟩
      · exact (runAlone_busy hk hp (by omega) hx hbusy _).trans hrun
      · rw [hdrawn, List.append_cons m.drawn]
        rfl
      · rw [List.forall_mem_cons]
        exact ⟨by omega, hearlier⟩
    · obtain ⟨m', hrun, hcall, hgiven, hdrawn⟩ := runAlone_free hk hp (by omega) hx hbusy
      exact ⟨0, Nat.zero_le _, m', [], hrun, hcall, hgiven, by rw [hdrawn, List.append_nil]; rfl, by simp⟩

end Alone

/-- In a session that starts with an empty send table: the slots that are occupied and the calls that were granted one leave one
slot over, so that a call in the loop finds one. -/
lemma Allotted.occupied_le (hinv : m.Allotted) (hhoused : m.session.Housed) :
    m.session.occupied + m.callsAt Place.inLoop ≤ m.session.sendTable.length - 1 := by
  have hheld := hinv.held
  have hlimit := hinv.limit
  have hmono : m.callsAt Place.inLoop ≤ m.callsAt Place.isGranted := List.countP_mono_left fun _ _ h => Place.isGranted_of_inLoop h
  rw [hhoused.occupied_eq]
  omega

lemma Allotted.exists_free (hinv : m.Allotted) (hhoused : m.session.Housed) (hcall : call ∈ m.calls) (hloop : call.place.inLoop) :
    ∃ e ∈ m.session.sendTable, ¬ (e.channel.isSome ∨ e.doc.isSome) := by
  by_contra! hall
  have hfull : m.session.occupied = m.session.sendTable.length := List.countP_eq_length.mpr fun e he => by
    simpa using hall e he
  have hpos : 0 < m.callsAt Place.inLoop := List.countP_pos_iff.mpr ⟨call, hcall, hloop⟩
  have := hinv.occupied_le hhoused
  omega

lemma isSending_parity {a b : ℕ} (ha : s.isSending a) (hb : s.isSending b) : a % 2 = b % 2 := by
  simp only [isSending, Nat.and_one_is_mod, decide_eq_true_eq] at ha hb
  have hab := ha.trans hb.symm
  rw [decide_eq_decide] at hab
  omega

/-- In a session whose send table was empty at the start, whatever calls send and whatever channels are closed in the meantime: the
slots that are occupied and the calls behind the limits leave one slot over, so a call in the loop has a free slot to find; no two
calls are given the same number, and the document of each stays in its slot; every document is in the slot that belongs to its number,
with the parity of the first number; and as long as numbers stay small, a call that runs alone leaves the loop after one
round at the latest, with a number larger than all that were drawn before. -/
theorem slots_allocated {m₀ : Machine T} (hm₀ : m₀.Fresh) (hrun : Run (fun _ _ => True) m₀ m) :
    (m.session.occupied + m.callsAt Place.inLoop ≤ m.session.sendTable.length - 1 ∧
      ∀ call ∈ m.calls, call.place.inLoop → ∃ e ∈ m.session.sendTable, ¬ (e.channel.isSome ∨ e.doc.isSome)) ∧
    (m.given.Nodup ∧ (∀ docNo ∈ m.given, m.session.Holding docNo) ∧
      ∀ m', Run (fun _ _ => True) m m' → ∀ docNo, m.session.Holding docNo → m'.session.Holding docNo) ∧
    (∀ (i : ℕ) (e : SendDocMutable), m.session.sendTable[i]? = some e → e.doc.isSome →
      (e.docNo >>> 1) % m.session.sendTable.length = i ∧ e.docNo % 2 = m₀.session.sendDocNo % 2) ∧
    ∀ k call, m.calls[k]? = some call → call.place = .search → (∀ docNo ∈ m.drawn, docNo < 2 ^ 62) →
      m.session.sendDocNo + 2 * (m.session.sendTable.length - 1) < 2 ^ 62 →
      ∃ n, 0 < n ∧ n ≤ m.session.sendTable.length ∧ ∃ m' docNo earlier, runAlone k (2 * n) m = .ok m' ∧
        m'.calls[k]? = some { call with place := .returned } ∧ m'.given = m.given ++ [docNo] ∧
        m'.drawn = m.drawn ++ earlier ++ [docNo] ∧ ∀ no ∈ m.drawn ++ earlier, no < docNo := by
  obtain ⟨hsound, hhoused, hallotted, hrecorded⟩ := Run.allocated hrun hm₀
  refine ⟨⟨hallotted.occupied_le hhoused, fun call hcall hloop => hallotted.exists_free hhoused hcall hloop⟩,
    ⟨hrecorded.nodup, hrecorded.given, fun m' h docNo hd => ?_⟩, fun i e he hdoc => ?_, fun k call hk hp hsmall hnext => ?_⟩
  · exact Run.keeps h hsound (fun hc hq => hc.holding hq) hd
  · obtain ⟨hside, hi⟩ := hhoused.doc i e he hdoc
    have hside₀ : m.session.isSending m₀.session.sendDocNo :=
      Run.keeps (Q := fun x => x.isSending m₀.session.sendDocNo) hrun hm₀.sound (fun hc hq => by rwa [hc.isSending]) hm₀.parity
    exact ⟨hi.symm, isSending_parity hside hside₀⟩
  · obtain ⟨e, he, hfree⟩ := hallotted.exists_free hhoused (List.mem_of_getElem? hk) (by rw [hp]; rfl)
    obtain ⟨i, he⟩ := List.getElem?_of_mem he
    obtain ⟨t, ht, hti⟩ := exists_add_mod_eq (a := m.session.sendDocNo / 2) (List.getElem?_eq_some_iff.mp he).1
    obtain ⟨n, hn, m', earlier, hrun, hcall, hgiven, hdrawn, hearlier⟩ := runAlone_leaves hk hp (t := t) (by omega) (hti ▸ he) hfree
    refine ⟨n + 1, Nat.succ_pos n, by omega, m', _, earlier, hrun, hcall, hgiven, hdrawn, ?_⟩
    rw [List.forall_mem_append]
    exact ⟨fun no hno => (hrecorded.drawn hsmall no hno).trans_le (Nat.le_add_right _ _), hearlier⟩

lemma oneHandle_fresh : oneHandle.Fresh where
  toInitial := oneHandle_initial
  empty := fun e he => by
    rw [List.eq_of_mem_replicate (n := 4) he]
    exact ⟨rfl, rfl⟩
  total := rfl

/-- A call in the loop, which then runs alone. -/
theorem slots_allocated_search : ∃ m : Machine ℕ, Run (fun _ _ => True) oneHandle m ∧
    m.calls = [⟨false, [7], none, .search⟩] ∧ m.session.occupied + m.callsAt Place.inLoop ≤ 3 ∧
    ∃ n, 0 < n ∧ n ≤ 4 ∧ ∃ m' docNo earlier, runAlone 0 (2 * n) m = .ok m' ∧
      m'.calls[0]? = some ⟨false, [7], none, .returned⟩ ∧ m'.given = [] ++ [docNo] ∧
      m'.drawn = [] ++ earlier ++ [docNo] ∧ ∀ no ∈ [] ++ earlier, no < docNo := by
  have hroom : oneHandle.HasRoom := by
    rw [HasRoom]
    decide
  have hstart : Run (fun _ _ => True) oneHandle _ := .single (.trySend [7] (List.mem_singleton_self _) hroom)
  have hsearch := ((hstart.tail (.send (k := 0) rfl rfl)).tail (.send (k := 0) rfl rfl)).tail (.send (k := 0) rfl rfl)
  have hall := slots_allocated oneHandle_fresh hsearch
  exact ⟨_, hsearch, rfl, hall.1.1, hall.2.2.2 0 _ rfl rfl (fun _ h => (by cases h)) (by decide)⟩

end Machine

end Pqsnet.Session
