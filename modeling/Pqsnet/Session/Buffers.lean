import Pqsnet.Session.Holders

/-! Reply buffers: which channel one was taken from, and who waits for the reply. -/

namespace Pqsnet.Session

open Checked Outcome SessionInner

variable {T : Type} {P : Allows} {s s' : SessionInner T} {U U' : Multiset Token} {i docNo : ℕ} {t : Token} {range : BufRange}

/-- A reply buffer that somebody has belongs to a document that is still in its slot, and if the channel of the document is
open it is still awaiting the reply. Nobody else has that buffer. -/
structure Linked (s : SessionInner T) (U : Multiset Token) : Prop where
  linked : ∀ docNo range, .buffer docNo range ∈ U → s.isSending docNo ∧ ∃ e, s.sendTable[s.sendIdx docNo]? = some e ∧
    e.docNo = docNo ∧ e.doc.isSome ∧ ∀ c, e.channel = some c → c.replyBuffer = .awaiting none
  single : ∀ docNo, Token.countOf (Token.isBufferOf docNo) U ≤ 1
  plain : ∀ (i : ℕ) (e : RecvDocMutable), s.recvTable[i]? = some e → ∀ c, e.channel = some c → c.replyBuffer = .none
  doc : ∀ (i : ℕ) (e : SendDocMutable), s.sendTable[i]? = some e → ∀ c, e.channel = some c → c.replyBuffer ≠ .none → e.doc.isSome

namespace Linked

variable {e e' : SendDocMutable}

lemma mono (hinv : Linked s U) (h : U' ≤ U) : Linked s U' where
  linked docNo range hb := hinv.linked docNo range (Multiset.mem_of_le h hb)
  single docNo := (Token.countOf_mono _ h).trans (hinv.single docNo)
  plain := hinv.plain
  doc := hinv.doc

lemma left (hinv : Linked s (U + U')) : Linked s U := hinv.mono (Multiset.le_add_right U U')

lemma congr (hinv : Linked s U) (hi : s'.isInitiator = s.isInitiator) (hr : s'.recvTable = s.recvTable)
    (ht : s'.sendTable = s.sendTable) : Linked s' U := by
  have hidx : ∀ docNo, s'.sendIdx docNo = s.sendIdx docNo := sendIdx_of_eq (by rw [ht])
  refine ⟨fun docNo range hb => ?_, hinv.single, by rw [hr]; exact hinv.plain, by rw [ht]; exact hinv.doc⟩
  rw [isSending_of_eq hi, hidx, ht]
  exact hinv.linked docNo range hb

lemma view (hinv : Linked s U) (hs : s'.view = s.view) : Linked s' U :=
  hinv.congr (isInitiator_of_view hs) (recvTable_of_view hs) (sendTable_of_view hs)

lemma add (hinv : Linked s U) (ht : ∀ docNo range, t ≠ .buffer docNo range) : Linked s (U + {t}) := by
  refine ⟨fun docNo range hb => hinv.linked docNo range ?_, fun docNo => ?_, hinv.plain, hinv.doc⟩
  · exact (Multiset.mem_add.mp hb).resolve_right fun h => ht docNo range (Multiset.mem_singleton.mp h).symm
  · have hnot : ¬ Token.isBufferOf docNo t := by
      cases t <;> simp_all [Token.isBufferOf]
    rw [Token.countOf_add, Token.countOf_singleton, if_neg hnot]
    exact hinv.single docNo

lemma writeRecv {e' : RecvDocMutable} (hinv : Linked s U) (hs : WritesRecv s s' i e')
    (hplain : ∀ c, e'.channel = some c → c.replyBuffer = .none) : Linked s' U := by
  refine ⟨fun docNo range hb => ?_, hinv.single, fun j x hx => ?_, by rw [hs.sendTable]; exact hinv.doc⟩
  · rw [hs.isSending, hs.sendIdx, hs.sendTable]
    exact hinv.linked docNo range hb
  · obtain ⟨-, rfl⟩ | ⟨-, hx⟩ := hs.get hx
    · exact hplain
    · exact hinv.plain j x hx

lemma writeSend (hinv : Linked s U) (he : s.sendTable[i]? = some e) (hs : WritesSend s s' i e')
    (hlink : ∀ docNo range, .buffer docNo range ∈ U → s.sendIdx docNo = i →
      e'.docNo = docNo ∧ e'.doc.isSome ∧ ∀ c, e'.channel = some c → c.replyBuffer = .awaiting none)
    (hdoc : ∀ c, e'.channel = some c → c.replyBuffer ≠ .none → e'.doc.isSome) : Linked s' U := by
  refine ⟨fun docNo range hb => ?_, hinv.single, by rw [hs.recvTable]; exact hinv.plain, fun j x hx => ?_⟩
  · rw [hs.isSending, hs.sendIdx, hs.sendTable]
    obtain ⟨hside, x, hx, hx'⟩ := hinv.linked docNo range hb
    refine ⟨hside, ?_⟩
    by_cases hi : s.sendIdx docNo = i
    · exact ⟨e', by rw [hi]; exact getElem?_set_of_getElem? he e', hlink docNo range hb hi⟩
    · exact ⟨x, by rwa [List.getElem?_set_ne (Ne.symm hi)], hx'⟩
  · obtain ⟨-, rfl⟩ | ⟨-, hx⟩ := hs.get hx
    · exact hdoc
    · exact hinv.doc j x hx

lemma of_mem (hinv : Linked s U) (he : s.sendTable[i]? = some e) (hb : .buffer docNo range ∈ U) (hi : s.sendIdx docNo = i) :
    e.docNo = docNo ∧ e.doc.isSome ∧ ∀ c, e.channel = some c → c.replyBuffer = .awaiting none := by
  obtain ⟨-, x, hx, hx'⟩ := hinv.linked docNo range hb
  obtain rfl : e = x := Option.some_inj.mp (he.symm.trans (hi ▸ hx))
  exact hx'

lemma reckons {own : Prop} {a a' : Option ℕ} (hinv : Linked s U) (h : Reckons P own docNo a a' U U') : Linked s U' := by
  cases h with
  | same => exact hinv
  | closed => exact hinv
  | add hown hh => exact hinv.add (by simp)
  | drop hown ha ht => exact hinv.left

end Linked

lemma SendQuiet.exists_channel {e e' : SendDocMutable} {c' : OpenChannel} (hq : SendQuiet e e') (hc' : e'.channel = some c') :
    ∃ c, e.channel = some c ∧ (c'.replyBuffer = c.replyBuffer ∨ (c'.replyBuffer = .none ∧ ∀ b, c.replyBuffer ≠ .awaiting b)) := by
  obtain ⟨c, hc⟩ := Option.isSome_iff_exists.mp (hq.channel.symm.trans (Option.isSome_of_eq_some hc'))
  exact ⟨c, hc, hq.reply c c' hc hc'⟩

lemma Change.linked (h : Change P s s' U U') (hinv : Linked s U) : Linked s' U' := by
  cases h with
  | other hs => exact hinv.view hs
  | @recv _ _ i e e' he hq hU hs =>
    refine (hinv.reckons hU).writeRecv hs fun c' hc' => ?_
    obtain ⟨c, hc, hreply⟩ := hq.channel c' hc'
    exact hreply (hinv.plain i e he c hc)
  | @send _ _ i e e' he hq hU hs =>
    refine (hinv.reckons hU).writeSend he hs (fun no range hb hi => ?_) fun c' hc' hne => ?_
    · obtain ⟨hno, hdoc, hwait⟩ := (hinv.reckons hU).of_mem he hb hi
      refine ⟨hq.docNo.trans hno, hq.doc.trans hdoc, fun c' hc' => ?_⟩
      obtain ⟨c, hc, hr | ⟨-, hr⟩⟩ := hq.exists_channel hc'
      · exact hr.trans (hwait c hc)
      · exact absurd (hwait c hc) (hr none)
    · obtain ⟨c, hc, hr | ⟨hr, -⟩⟩ := hq.exists_channel hc'
      · exact hq.doc.trans (hinv.doc i e he c hc (hr ▸ hne))
      · exact absurd hr hne
  | @closeRecv U docNo e t hside he hno hopen ht hc hs =>
    refine (hinv.writeRecv (writesRecv_setRecv s (s.recvIdx docNo) { e with channel := none, needsSendControl := true })
      fun c hc => by cases hc).congr (congrArg View.isInitiator hs) (congrArg View.recvTable hs) (congrArg View.sendTable hs)
  | @closeSend U docNo e t hside he hno hopen ht hc hs =>
    refine (hinv.writeSend he (writesSend_setSend s _ { e with channel := none, needsSendClose := true }) (fun no range hb hi => ?_)
      fun c hc => by cases hc).congr (congrArg View.isInitiator hs) (congrArg View.recvTable hs) (congrArg View.sendTable hs)
    obtain ⟨hno, hdoc, -⟩ := hinv.of_mem he hb hi
    exact ⟨hno, hdoc, fun c hc => by cases hc⟩
  | @claim U docNo e e' hside he hlt hfin hno hdoc hflag hc hs =>
    exact (hinv.writeRecv hs fun c h => (hc c h).2).add (by simp)
  | wait hside he hno hs => exact (hinv.add (by simp)).view hs
  | @install U docNo e doc he hno hdoc hs => exact hinv.left.writeRecv hs fun c hc => hinv.plain _ e he c hc
  | @finish U docNo e doc hside he hdoc hno hs =>
    refine (hinv.writeRecv hs fun c' hc' => ?_).add (by simp)
    obtain ⟨c, hc, rfl⟩ := Option.map_eq_some_iff.mp hc'
    exact hinv.plain _ e he c hc
  | reject he hdoc hs => exact hinv.writeRecv hs fun c hc => hinv.plain _ _ he c hc
  | @retire _ docNo e he hno hs => exact hinv.left.writeRecv hs fun c hc => by cases hc
  | @lend U docNo e c range hP hside he hno hc hr hs =>
    -- the buffer was still there, so nobody has it
    have hdoc := hinv.doc _ e he c hc (by rw [hr]; exact fun h => by cases h)
    have hnot {no : ℕ} {r : BufRange} (hb : .buffer no r ∈ U) (hi : s.sendIdx no = s.sendIdx docNo) : False := by
      have h := (hinv.of_mem he hb hi).2.2 c hc
      rw [hr] at h
      cases h
    have hwrite := hinv.writeSend he hs (fun no r hb hi => (hnot hb hi).elim) fun _ _ _ => hdoc
    refine ⟨fun no r hb => ?_, fun no => ?_, hwrite.plain, hwrite.doc⟩
    · obtain hb | hb := Multiset.mem_add.mp hb
      · exact hwrite.linked no r hb
      · obtain ⟨rfl, rfl⟩ := Token.buffer.inj (Multiset.mem_singleton.mp hb)
        refine ⟨by rwa [hs.isSending], _, hs.written he, hno, hdoc, fun c' hc' => ?_⟩
        cases hc'
        rfl
    · by_cases heq : docNo = no
      · have hzero : Token.countOf (Token.isBufferOf no) U = 0 := by
          refine Token.countOf_eq_zero.mpr fun t ht hbuf => ?_
          cases t <;> simp [Token.isBufferOf] at hbuf
          subst hbuf heq
          exact hnot ht rfl
        rw [Token.countOf_add, hzero, Token.countOf_singleton]
        split <;> omega
      · rw [Token.countOf_add, Token.countOf_singleton, if_neg (by simpa [Token.isBufferOf] using heq)]
        exact hinv.single no
  | @reply _ docNo len e c range u he hno hc hs =>
    have hmem : .buffer docNo range ∈ U' + {.buffer docNo range} := by simp
    have hnot {no : ℕ} {r : BufRange} (hb : .buffer no r ∈ U') (hi : s.sendIdx no = s.sendIdx docNo) : False := by
      obtain rfl := (hinv.left.of_mem he hb hi).1.symm.trans hno
      have h := hinv.single no
      rw [Token.countOf_add, Token.countOf_singleton, if_pos (by simp [Token.isBufferOf])] at h
      have hpos := Token.countOf_pos.mpr ⟨_, hb, (by simp [Token.isBufferOf] : Token.isBufferOf no (.buffer no r))⟩
      omega
    exact hinv.left.writeSend he hs (fun no r hb hi => (hnot hb hi).elim) fun _ _ _ => (hinv.of_mem he hmem rfl).2.1
  | @openChannel U docNo e e' t hP hside he hfree hno hdoc hflag hc hs =>
    refine (hinv.writeSend he hs (fun no r hb hi => ?_) fun _ _ _ => hdoc).add fun no r => ?_
    · have h := (hinv.of_mem he hb hi).2.1
      rw [hfree.2] at h
      cases h
    · obtain ⟨-, rfl⟩ | ⟨range, -, rfl⟩ := hc <;> simp
  | forget ht hs => exact hinv.left.view hs
  | deliver hs => exact (hinv.left.add (by simp)).view hs
  | clone hc hh hs => exact (hinv.add (by simp)).view hs
  | complete hc hs => exact (hinv.left.add (by simp)).view hs
  | count hP hs =>
    exact hinv.congr (congrArg View.isInitiator hs) (congrArg View.recvTable hs) (congrArg View.sendTable hs)

/-- Whoever has a reply buffer has it from a future that still waits for the reply. That future has the only reference to the
channel that the reply comes in. -/
structure Lent (s : SessionInner T) (U : Multiset Token) : Prop where
  live : ∀ docNo range, .buffer docNo range ∈ U → .future docNo range ∈ U ∧ s.channelOf docNo ≠ none
  waiting : ∀ (i : ℕ) (e : SendDocMutable) c range, s.sendTable[i]? = some e → e.channel = some c →
    c.replyBuffer = .awaiting (some range) → .future e.docNo range ∈ U ∧ s.isSending e.docNo ∧ i = s.sendIdx e.docNo
  alone : ∀ docNo range, .future docNo range ∈ U → Token.countOf (Token.isFutureOf docNo) U ≤ 1 ∧ .handle docNo ∉ U ∧
    ∀ c, s.channelOf docNo = some c → c.refCount = 1

namespace Lent

lemma congr (hinv : Lent s U) (hi : s'.isInitiator = s.isInitiator) (hr : s'.recvTable = s.recvTable)
    (ht : s'.sendTable = s.sendTable) : Lent s' U := by
  have hc (docNo : ℕ) : s'.channelOf docNo = s.channelOf docNo := channelOf_of_eq hi hr ht
  have hidx (docNo : ℕ) : s'.sendIdx docNo = s.sendIdx docNo := sendIdx_of_eq (by rw [ht]) docNo
  refine ⟨fun docNo range => ?_, fun i e c range => ?_, fun docNo range => ?_⟩
  · rw [hc]
    exact hinv.live docNo range
  · rw [ht, hidx, isSending_of_eq hi]
    exact hinv.waiting i e c range
  · rw [hc]
    exact hinv.alone docNo range

lemma view (hinv : Lent s U) (hs : s'.view = s.view) : Lent s' U :=
  hinv.congr (isInitiator_of_view hs) (recvTable_of_view hs) (sendTable_of_view hs)

/-- What becomes of everything else does not matter as long as it is no handle to a document with a future. -/
lemma tokens (hinv : Lent s U) (hbuffer : ∀ docNo range, .buffer docNo range ∈ U' → .buffer docNo range ∈ U)
    (hfuture : ∀ docNo range, .future docNo range ∈ U' ↔ .future docNo range ∈ U)
    (hcount : ∀ docNo, Token.countOf (Token.isFutureOf docNo) U' ≤ Token.countOf (Token.isFutureOf docNo) U)
    (hhandle : ∀ docNo range, .handle docNo ∈ U' → .future docNo range ∈ U → .handle docNo ∈ U) : Lent s U' := by
  refine ⟨fun docNo range hb => ?_, fun i e c range he hc hr => ?_, fun docNo range hf => ?_⟩
  · exact (hinv.live docNo range (hbuffer docNo range hb)).imp_left (hfuture docNo range).mpr
  · exact (hinv.waiting i e c range he hc hr).imp_left (hfuture e.docNo range).mpr
  · have hf' := (hfuture docNo range).mp hf
    obtain ⟨hle, hnot, hone⟩ := hinv.alone docNo range hf'
    exact ⟨(hcount docNo).trans hle, fun hh => hnot (hhandle docNo range hh hf'), hone⟩

lemma add (hinv : Lent s U) (hbuffer : ∀ docNo range, t ≠ .buffer docNo range) (hfuture : ∀ docNo range, t ≠ .future docNo range)
    (hhandle : ∀ docNo range, t = .handle docNo → .future docNo range ∈ U → .handle docNo ∈ U) : Lent s (U + {t}) := by
  refine hinv.tokens (fun docNo range h => ?_) (fun docNo range => ?_) (fun docNo => ?_) fun docNo range h hf => ?_
  · exact (Multiset.mem_add.mp h).resolve_right fun h => hbuffer docNo range (Multiset.mem_singleton.mp h).symm
  · rw [Multiset.mem_add, Multiset.mem_singleton, or_iff_left (hfuture docNo range).symm]
  · rw [Token.countOf_add, Token.countOf_singleton, if_neg, add_zero]
    cases t <;> simp_all [Token.isFutureOf]
  · obtain h | h := Multiset.mem_add.mp h
    · exact h
    · exact hhandle docNo range (Multiset.mem_singleton.mp h).symm hf

lemma left (hinv : Lent s (U + {t})) (hfuture : ∀ docNo range, t ≠ .future docNo range) : Lent s U := by
  refine hinv.tokens (fun docNo range h => Multiset.mem_add.mpr (.inl h)) (fun docNo range => ?_)
    (fun docNo => Token.countOf_mono _ (Multiset.le_add_right _ _)) fun docNo range h _ => Multiset.mem_add.mpr (.inl h)
  rw [Multiset.mem_add, Multiset.mem_singleton, or_iff_left (hfuture docNo range).symm]

lemma writeRecv {e' : RecvDocMutable} (hinv : Lent s U) (hnum : Numbered s U) (hs : WritesRecv s s' i e') : Lent s' U := by
  refine ⟨fun docNo range hb => ?_, fun j x c range => ?_, fun docNo range hf => ?_⟩
  · have h := hinv.live docNo range hb
    rwa [hs.channelOf_sending (hnum.sending docNo range h.1)]
  · rw [hs.sendTable, hs.sendIdx, hs.isSending]
    exact hinv.waiting j x c range
  · rw [hs.channelOf_sending (hnum.sending docNo range hf)]
    exact hinv.alone docNo range hf

lemma slot_of_live {e : SendDocMutable} (hinv : Lent s U) (hnum : Numbered s U) (he : s.sendTable[i]? = some e)
    (hb : .buffer docNo range ∈ U) (hi : s.sendIdx docNo = i) : e.docNo = docNo := by
  obtain ⟨hf, hopen⟩ := hinv.live docNo range hb
  obtain ⟨c, hc⟩ := Option.ne_none_iff_exists'.mp hopen
  obtain ⟨x, hx, hno, -⟩ | ⟨x, -, -, -, hside, -⟩ := channelOf_cases hc
  · cases he.symm.trans (hi ▸ hx)
    exact hno
  · exact absurd (hnum.sending docNo range hf) hside

lemma writeSend {e e' : SendDocMutable} (hinv : Lent s U) (hnum : Numbered s U) (he : s.sendTable[i]? = some e)
    (hs : WritesSend s s' i e') (hno : e'.docNo = e.docNo)
    (hopen : ∀ range, .buffer e.docNo range ∈ U → e.channel ≠ none → e'.channel ≠ none)
    (hkeep : ∀ c', e'.channel = some c' → ∃ c, e.channel = some c ∧
      (∀ range, c'.replyBuffer = .awaiting (some range) → c.replyBuffer = .awaiting (some range)) ∧
      ∀ range, .future e.docNo range ∈ U → s.isSending e.docNo → i = s.sendIdx e.docNo → c'.refCount = c.refCount) : Lent s' U := by
  refine ⟨fun docNo range hb => ?_, fun j x c range hx hc hr => ?_, fun docNo range hf => ?_⟩
  · have h := hinv.live docNo range hb
    have hside := hnum.sending docNo range h.1
    refine ⟨h.1, ?_⟩
    by_cases hi : s.sendIdx docNo = i
    · obtain rfl := hinv.slot_of_live hnum he hb hi
      subst hi
      rw [channelOf_send (hs.isSending _ ▸ hside) (hs.written he) hno]
      exact hopen range hb (channelOf_send hside he rfl ▸ h.2)
    · rw [hs.channelOf_other hside hi]
      exact h.2
  · rw [hs.sendIdx, hs.isSending]
    obtain ⟨rfl, rfl⟩ | ⟨-, hx⟩ := hs.get hx
    · obtain ⟨c₀, hc₀, hwait, -⟩ := hkeep c hc
      rw [hno]
      exact hinv.waiting j e c₀ range he hc₀ (hwait range hr)
    · exact hinv.waiting j x c range hx hc hr
  · have hside := hnum.sending docNo range hf
    obtain ⟨hle, hnot, hone⟩ := hinv.alone docNo range hf
    refine ⟨hle, hnot, fun c hc => ?_⟩
    obtain ⟨-, hi, hno', hc⟩ | ⟨hc, -⟩ := hs.channelOf hc
    · obtain ⟨c₀, hc₀, -, hcount⟩ := hkeep c hc
      obtain rfl := hno.symm.trans hno'
      rw [hcount range hf hside hi.symm]
      exact hone c₀ ((channelOf_send hside (hi ▸ he) rfl).trans hc₀)
    · exact hone c hc

lemma open_channel {e e' : SendDocMutable} (hinv : Lent s U) (hnum : Numbered s U) (hside : s.isSending docNo)
    (he : s.sendTable[s.sendIdx docNo]? = some e) (hfree : e.channel = none) (hnone : ¬ Holds docNo U) (hno : e'.docNo = docNo)
    (hc : e'.channel = some ⟨1, [], .none⟩ ∧ t = .handle docNo ∨
      ∃ range, e'.channel = some ⟨1, [], .awaiting (some range)⟩ ∧ t = .future docNo range)
    (hs : WritesSend s s' (s.sendIdx docNo) e') : Lent s' (U + {t}) := by
  have hother {no : ℕ} (hne : docNo ≠ no) : t ≠ .handle no ∧ ∀ r, t ≠ .future no r := by
    obtain ⟨-, rfl⟩ | ⟨range, -, rfl⟩ := hc <;> simp [hne]
  refine ⟨fun no r hb => ?_, fun j x c r hx hx' hr => ?_, fun no r hf => ?_⟩
  · have hb : .buffer no r ∈ U := by
      obtain ⟨-, rfl⟩ | ⟨range, -, rfl⟩ := hc <;> simpa using hb
    obtain ⟨hf, hopen⟩ := hinv.live no r hb
    have hside' := hnum.sending no r hf
    refine ⟨Multiset.mem_add.mpr (.inl hf), ?_⟩
    rw [hs.channelOf_other hside' fun hi => ?_]
    · exact hopen
    · rw [channelOf_send hside' (hi ▸ he) (hinv.slot_of_live hnum he hb hi)] at hopen
      exact hopen hfree
  · rw [hs.sendIdx, hs.isSending]
    obtain ⟨rfl, rfl⟩ | ⟨-, hx⟩ := hs.get hx
    · rw [hno]
      obtain ⟨hc, -⟩ | ⟨range, hc, rfl⟩ := hc
      · cases hc.symm.trans hx'
        cases hr
      · cases hc.symm.trans hx'
        cases hr
        exact ⟨by simp, hside, rfl⟩
    · exact (hinv.waiting j x c r hx hx' hr).imp_left fun h => Multiset.mem_add.mpr (.inl h)
  · by_cases hne : docNo = no
    · subst hne
      have hzero : Token.countOf (Token.isFutureOf docNo) U = 0 := by
        refine Token.countOf_eq_zero.mpr fun t ht h => ?_
        cases t <;> simp [Token.isFutureOf] at h
        exact hnone (.inr ⟨_, h ▸ ht⟩)
      obtain ⟨-, rfl⟩ | ⟨range, hc, rfl⟩ := hc
      · exact absurd (.inr ⟨r, by simpa using hf⟩) hnone
      · rw [Token.countOf_add, hzero, Token.countOf_singleton, if_pos (by simp [Token.isFutureOf])]
        refine ⟨le_rfl, fun h => hnone (.inl (by simpa using h)), fun c hopen => ?_⟩
        rw [channelOf_send (hs.isSending _ ▸ hside) (hs.written he) hno] at hopen
        cases hc.symm.trans hopen
        rfl
    · have hf : .future no r ∈ U := (Multiset.mem_add.mp hf).resolve_right fun h => (hother hne).2 r (Multiset.mem_singleton.mp h).symm
      obtain ⟨hle, hnot, hone⟩ := hinv.alone no r hf
      refine ⟨?_, fun h => ?_, fun c hopen => ?_⟩
      · rw [Token.countOf_add, Token.countOf_singleton, if_neg]
        · exact hle
        · obtain ⟨-, rfl⟩ | ⟨range, -, rfl⟩ := hc <;> simp [Token.isFutureOf, hne]
      · exact hnot ((Multiset.mem_add.mp h).resolve_right fun h => (hother hne).1 (Multiset.mem_singleton.mp h).symm)
      · obtain ⟨-, -, hno', -⟩ | ⟨hopen, -⟩ := hs.channelOf hopen
        · exact absurd (hno.symm.trans hno') hne
        · exact hone c hopen

lemma end_future (hinv : Lent s (U + {.future docNo range})) (hb : ∀ r, .buffer docNo r ∉ U)
    (hw : ∀ c, s.channelOf docNo = some c → ∀ b, c.replyBuffer ≠ .awaiting b) : Lent s U := by
  refine ⟨fun no r h => ?_, fun i e c r he hc hr => ?_, fun no r hf => ?_⟩
  · obtain ⟨hf, hopen⟩ := hinv.live no r (Multiset.mem_add.mpr (.inl h))
    refine ⟨(Multiset.mem_add.mp hf).resolve_right fun hf => ?_, hopen⟩
    rw [(Token.future.inj (Multiset.mem_singleton.mp hf)).1] at h
    exact hb r h
  · obtain ⟨hf, hside, hi⟩ := hinv.waiting i e c r he hc hr
    refine ⟨(Multiset.mem_add.mp hf).resolve_right fun hf => ?_, hside, hi⟩
    obtain ⟨rfl, rfl⟩ := Token.future.inj (Multiset.mem_singleton.mp hf)
    exact hw c ((channelOf_send hside (hi ▸ he) rfl).trans hc) _ hr
  · obtain ⟨hle, hnot, hone⟩ := hinv.alone no r (Multiset.mem_add.mpr (.inl hf))
    exact ⟨(Token.countOf_mono _ (Multiset.le_add_right _ _)).trans hle, fun h => hnot (Multiset.mem_add.mpr (.inl h)), hone⟩

lemma future_not_mem (hinv : Lent s (U + {.future docNo range})) (r : BufRange) : .future docNo r ∉ U := fun h => by
  have hle := (hinv.alone docNo range (by simp)).1
  have hpos := Token.countOf_pos.mpr ⟨_, h, (by simp [Token.isFutureOf] : Token.isFutureOf docNo (.future docNo r))⟩
  rw [Token.countOf_add, Token.countOf_singleton, if_pos (by simp [Token.isFutureOf])] at hle
  omega

end Lent

/-- A future is dropped only when nobody has its buffer, and then nobody gets it. -/
def Allows.Safe (P : Allows) (U : Multiset Token) : Prop :=
  ∀ docNo, P.drop docNo → ¬ P.lend ∧ ∀ range, .buffer docNo range ∉ U

lemma Reckons.buffer {own : Prop} {a a' : Option ℕ} {no : ℕ} (h : Reckons P own docNo a a' U U') (hb : .buffer no range ∈ U') :
    .buffer no range ∈ U := by
  cases h with
  | same => exact hb
  | closed => exact hb
  | add => simpa using hb
  | drop => exact Multiset.mem_add.mpr (.inl hb)

lemma Change.buffer {no : ℕ} (h : Change P s s' U U') (hP : ¬ P.lend) (hb : .buffer no range ∈ U') : .buffer no range ∈ U := by
  cases h with
  | other => exact hb
  | recv he hq hU hs => exact hU.buffer hb
  | send he hq hU hs => exact hU.buffer hb
  | closeRecv => exact hb
  | closeSend => exact hb
  | claim => simpa using hb
  | wait => simpa using hb
  | install => exact Multiset.mem_add.mpr (.inl hb)
  | finish => simpa using hb
  | reject => exact hb
  | retire => exact Multiset.mem_add.mpr (.inl hb)
  | lend hlend => exact absurd hlend hP
  | reply => exact Multiset.mem_add.mpr (.inl hb)
  | openChannel hP hside he hfree hno hdoc hflag hc hs => obtain ⟨-, rfl⟩ | ⟨r, -, rfl⟩ := hc <;> simpa using hb
  | forget => exact Multiset.mem_add.mpr (.inl hb)
  | deliver => simpa using hb
  | clone => simpa using hb
  | complete => simpa using hb
  | count => exact hb

lemma Change.safe (h : Change P s s' U U') (hsafe : P.Safe U) : P.Safe U' := fun docNo hdrop =>
  ⟨(hsafe docNo hdrop).1, fun range hb => (hsafe docNo hdrop).2 range (h.buffer (hsafe docNo hdrop).1 hb)⟩

lemma Reckons.lent {own : Prop} {a a' : Option ℕ} (h : Reckons P own docNo a a' U U') (hinv : Lent s U)
    (hfuture : ∀ range n, own → a = some n → 1 < n → .future docNo range ∉ U) : Lent s U' := by
  cases h with
  | same => exact hinv
  | closed => exact hinv
  | add hown hh =>
    refine hinv.add (by simp) (by simp) fun no r heq _ => ?_
    rwa [← Token.handle.inj heq]
  | drop hown ha ht =>
    obtain rfl | ⟨r, rfl, -⟩ := ht
    · exact hinv.left (by simp)
    · exact absurd (by simp) (hfuture r _ hown rfl ha)

lemma Reckons.fixed {own : Prop} {a a' : ℕ} (h : Reckons P own docNo (some a) (some a') U U') (hf : .future docNo range ∈ U')
    (hhandle : ∀ r, .future docNo r ∈ U → .handle docNo ∉ U) (hone : ∀ r, own → .future docNo r ∈ U → a = 1) : a' = a := by
  cases h with
  | same => rfl
  | add hown hh => exact absurd hh (hhandle range (by simpa using hf))
  | drop hown ha ht =>
    have h := hone range hown (Multiset.mem_add.mpr (.inl hf))
    omega

open Lent in
lemma Change.lent (h : Change P s s' U U') (hnum : Numbered s U) (hpop : Populated s U) (hlink : Linked s U) (hsafe : P.Safe U)
    (hinv : Lent s U) : Lent s' U' := by
  cases h with
  | other hs => exact hinv.view hs
  | recv he hq hU hs =>
    exact (hU.lent hinv fun r _ hown _ _ hf => hown.1 (hnum.sending _ r hf)).writeRecv (hnum.reckons hU) hs
  | @send _ _ i e e' he hq hU hs =>
    have hone {r : BufRange} {c : OpenChannel} (hown : s.isSending e.docNo ∧ i = s.sendIdx e.docNo) (hf : .future e.docNo r ∈ U)
        (hc : e.channel = some c) : c.refCount = 1 :=
      (hinv.alone e.docNo r hf).2.2 c ((channelOf_send hown.1 (hown.2 ▸ he) rfl).trans hc)
    have hlent : Lent s U' := by
      refine hU.lent hinv fun r n hown hn ha hf => ?_
      obtain ⟨c, hc, rfl⟩ := Option.map_eq_some_iff.mp hn
      exact ha.ne' (hone hown hf hc)
    refine hlent.writeSend (hnum.reckons hU) he hs hq.docNo (fun r hb hopen => ?_) fun c' hc' => ?_
    · rw [← Option.isSome_iff_ne_none] at hopen ⊢
      exact hq.channel.trans hopen
    · obtain ⟨c, hc, hr⟩ := hq.exists_channel hc'
      refine ⟨c, hc, fun r hr' => ?_, fun r hf hside hi => ?_⟩
      · obtain hr | ⟨hr, -⟩ := hr
        · exact hr.symm.trans hr'
        · cases hr.symm.trans hr'
      · rw [refs, refs, hc, hc'] at hU
        exact hU.fixed hf (fun r' hf' => (hinv.alone _ r' hf').2.1) fun r' hown hf' => hone hown hf' hc
  | @closeRecv U docNo e t hside he hno hopen ht hc hs =>
    exact (hinv.writeRecv hnum (writesRecv_setRecv s (s.recvIdx docNo) { e with channel := none, needsSendControl := true })).congr
      (congrArg View.isInitiator hs) (congrArg View.recvTable hs) (congrArg View.sendTable hs)
  | @closeSend U docNo e t hside he hno hopen ht hc hs =>
    refine (hinv.writeSend hnum he (writesSend_setSend s _ { e with channel := none, needsSendClose := true }) rfl
      (fun r hb => ?_) fun c' hc' => by cases hc').congr
      (congrArg View.isInitiator hs) (congrArg View.recvTable hs) (congrArg View.sendTable hs)
    rw [hno] at hb
    obtain rfl | ⟨r', rfl, hdrop⟩ := hc
    · exact absurd ht (hinv.alone docNo r (hinv.live docNo r hb).1).2.1
    · exact absurd hb ((hsafe docNo hdrop).2 r)
  | claim hside he hlt hfin hno hdoc hflag hc hs => exact (hinv.writeRecv hnum hs).add (by simp) (by simp) (by simp)
  | wait hside he hno hs => exact (hinv.add (by simp) (by simp) (by simp)).view hs
  | install he hno hdoc hs => exact (hinv.left (by simp)).writeRecv hnum.left hs
  | finish hside he hdoc hno hs => exact (hinv.writeRecv hnum hs).add (by simp) (by simp) (by simp)
  | reject he hdoc hs => exact hinv.writeRecv hnum hs
  | retire he hno hs => exact (hinv.left (by simp)).writeRecv hnum.left hs
  | @lend U docNo e c range hP hside he hno hc hr hs =>
    have hwrite : Lent s' U := by
      refine hinv.writeSend hnum he hs rfl (fun _ _ _ h => by cases h) fun c' hc' => ⟨c, hc, ?_⟩
      cases hc'
      exact ⟨fun _ h => (by cases h), fun _ _ _ _ => rfl⟩
    have hfuture : .future docNo range ∈ U := hno ▸ (hinv.waiting _ e c range he hc hr).1
    refine ⟨fun no r hb => ?_, fun j x c r hx hc hr => ?_, fun no r hf => ?_⟩
    · obtain hb | hb := Multiset.mem_add.mp hb
      · exact (hwrite.live no r hb).imp_left fun h => Multiset.mem_add.mpr (.inl h)
      · obtain ⟨rfl, rfl⟩ := Token.buffer.inj (Multiset.mem_singleton.mp hb)
        refine ⟨Multiset.mem_add.mpr (.inl hfuture), ?_⟩
        rw [channelOf_send (hs.isSending _ ▸ hside) (hs.written he) hno]
        exact Option.some_ne_none _
    · exact (hwrite.waiting j x c r hx hc hr).imp_left fun h => Multiset.mem_add.mpr (.inl h)
    · rw [Token.countOf_add, Token.countOf_singleton, if_neg (by simp [Token.isFutureOf])]
      exact (hwrite.alone no r (by simpa using hf)).imp_right (And.imp_left fun h => by simpa using h)
  | @reply _ docNo len e c range u he hno hc hs =>
    refine (hinv.left (by simp)).writeSend hnum.left he hs rfl (fun _ _ _ h => by cases h) fun c' hc' => ⟨c, hc, ?_⟩
    cases hc'
    exact ⟨fun _ h => (by cases h), fun _ _ _ _ => rfl⟩
  | @openChannel U docNo e e' t hP hside he hfree hno hdoc hflag hc hs =>
    have hnone : ¬ Holds docNo U := fun h => by
      obtain ⟨x, hx, -, hx'⟩ := hpop docNo h hside
      cases he.symm.trans hx
      rw [hfree.2] at hx'
      cases hx'
    exact hinv.open_channel hnum hside he hfree.1 hnone hno hc hs
  | @forget _ t ht hs =>
    refine Lent.view ?_ hs
    by_cases hf : ∃ docNo range, t = .future docNo range
    · obtain ⟨docNo, range, rfl⟩ := hf
      obtain ⟨hdrop, hclosed⟩ := ht docNo range rfl
      refine hinv.end_future (fun r hb => (hsafe docNo hdrop).2 r (Multiset.mem_add.mpr (.inl hb))) fun c hc => ?_
      cases hclosed.symm.trans hc
    · exact hinv.left fun docNo range h => hf ⟨docNo, range, h⟩
  | @deliver U docNo hs =>
    refine ((hinv.left (by simp)).add (by simp) (by simp) fun no r heq hf => ?_).view hs
    obtain rfl := Token.handle.inj heq
    exact absurd (hnum.sending docNo r (Multiset.mem_add.mpr (.inl hf))) (hnum.receiving (.copy docNo) (by simp) docNo rfl)
  | clone hc hh hs =>
    refine (hinv.add (by simp) (by simp) fun no r heq _ => ?_).view hs
    rwa [← Token.handle.inj heq]
  | @complete U docNo range hc hs =>
    have hend : Lent s U := by
      refine hinv.end_future (fun r hb => ?_) hc
      obtain ⟨hside, e, he, hno, -, hwait⟩ := hlink.linked docNo r (Multiset.mem_add.mpr (.inl hb))
      obtain ⟨c, hopen⟩ := Option.ne_none_iff_exists'.mp (hinv.live docNo r (Multiset.mem_add.mpr (.inl hb))).2
      exact hc c hopen none (hwait c ((channelOf_send hside he hno).symm.trans hopen))
    refine (hend.add (by simp) (by simp) fun no r heq hf => ?_).view hs
    obtain rfl := Token.handle.inj heq
    exact absurd hf (hinv.future_not_mem r)
  | count hP hs =>
    exact hinv.congr (congrArg View.isInitiator hs) (congrArg View.recvTable hs) (congrArg View.sendTable hs)

end Pqsnet.Session
