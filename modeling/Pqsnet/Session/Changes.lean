import Pqsnet.Session.Ownership
import Pqsnet.Session.Threads

/-! The small changes that threads make to a session that they share. Between two of them everything that must
not be duplicated is accounted for, whether it is in a slot, in a channel, or in the hands of a thread. -/

namespace Pqsnet.Session

open Checked Outcome

/-- Something that must not be duplicated: a completed document that was not delivered, a segment that waits for a slot,
a slot that was reserved, a reply buffer that was taken out of the channel of its parent, a handle of the application, and
a future that waits for a reply, with its buffer. -/
inductive Token
  | copy (docNo : ℕ)
  | waiting (docNo : ℕ)
  | claim (docNo : ℕ)
  | buffer (parentNo : ℕ) (range : BufRange)
  | handle (docNo : ℕ)
  | future (docNo : ℕ) (range : BufRange)
  deriving DecidableEq

namespace Token

/-- Whether this counts as a reference to the channel of a document. -/
def refersTo (docNo : ℕ) : Token → Bool
  | copy no => no = docNo
  | handle no => no = docNo
  | future no _ => no = docNo
  | _ => false

/-- Whether this is the reply buffer of a document. -/
def isBufferOf (docNo : ℕ) : Token → Bool
  | buffer no _ => no = docNo
  | _ => false

/-- Whether this is the future of a document. -/
def isFutureOf (docNo : ℕ) : Token → Bool
  | future no _ => no = docNo
  | _ => false

/-- The number of the received document that this has to do with. -/
def receivedNo : Token → Option ℕ
  | copy no => some no
  | waiting no => some no
  | claim no => some no
  | _ => none

/-- How many there are of a kind. -/
def countOf (f : Token → Bool) (U : Multiset Token) : ℕ := U.countP fun t => f t

@[simp] lemma countOf_add (f : Token → Bool) (U V : Multiset Token) : countOf f (U + V) = countOf f U + countOf f V :=
  Multiset.countP_add _ U V

@[simp] lemma countOf_singleton (f : Token → Bool) (t : Token) : countOf f {t} = if f t then 1 else 0 := by
  rw [countOf, ← Multiset.cons_zero, Multiset.countP_cons, Multiset.countP_zero, zero_add]

lemma countOf_mono (f : Token → Bool) {U V : Multiset Token} (h : U ≤ V) : countOf f U ≤ countOf f V :=
  Multiset.countP_le_of_le _ h

lemma countOf_pos {f : Token → Bool} {U : Multiset Token} : 0 < countOf f U ↔ ∃ t ∈ U, f t := Multiset.countP_pos

lemma countOf_eq_zero {f : Token → Bool} {U : Multiset Token} : countOf f U = 0 ↔ ∀ t ∈ U, ¬ f t := Multiset.countP_eq_zero

end Token

/-- What the memory of a document with that parent amounts to. -/
def DocMem.tokens (parentNo : ℕ) : DocMem → Multiset Token
  | replyBuf range _ => {.buffer parentNo range}
  | simple _ => 0

/-- The document whose reply buffer this one would use. Only a document with a parent gets a reply buffer. -/
def RecvDoc.lender (doc : RecvDoc) : ℕ := doc.parentNo.getD 0

def RecvDoc.tokens (doc : RecvDoc) : Multiset Token := doc.mem.tokens doc.lender

def RecvDocState.tokens : RecvDocState → Multiset Token
  | active doc => doc.tokens
  | _ => 0

def copies (held : Multiset Undelivered) : Multiset Token := held.map fun u => .copy u.docNo

/-- The part of a session that the slots are in, with the documents whose close was scheduled. -/
structure View where
  isInitiator : Bool
  recvTable : List RecvDocMutable
  sendTable : List SendDocMutable
  closes : List ℕ
  sendTotal : ℕ
  sendDocNo : ℕ

/-- What only some of the steps may do: to drop the future of a document, to lend a reply buffer, and to allocate a slot. -/
structure Allows where
  drop : ℕ → Prop
  lend : Prop
  send : Prop

namespace SessionInner

variable {T : Type}

/-- The documents whose close was scheduled. -/
def closes (s : SessionInner T) : List ℕ :=
  s.scheduled.filterMap fun x => if x.1 = variantControlClose then some x.2 else none

def view (s : SessionInner T) : View := ⟨s.isInitiator, s.recvTable, s.sendTable, s.closes, s.sendTotal, s.sendDocNo⟩

/-- The reply buffers that received documents use. -/
def lent (s : SessionInner T) : Multiset Token := (s.recvTable.map fun e => e.doc.tokens).sum

/-- What the slots have. -/
def tokens (s : SessionInner T) : Multiset Token := copies s.held + s.lent

end SessionInner

/-- A handle to a document, or a future of it that may be dropped. -/
def Token.Closes (P : Allows) (docNo : ℕ) (t : Token) : Prop :=
  t = .handle docNo ∨ ∃ range, t = .future docNo range ∧ P.drop docNo

/-- How the number of references of a channel changes, along with who refers to it. That changes only in the slot of the
document. -/
inductive Reckons (P : Allows) (own : Prop) (docNo : ℕ) : Option ℕ → Option ℕ → Multiset Token → Multiset Token → Prop
  | same {a : Option ℕ} {U : Multiset Token} : Reckons P own docNo a a U U
  | closed {a : Option ℕ} {U : Multiset Token} : Reckons P own docNo a none U U
  | add {a : ℕ} {U : Multiset Token} (hown : own) (hh : .handle docNo ∈ U) :
      Reckons P own docNo (some a) (some (a + 1)) U (U + {.handle docNo})
  | drop {a : ℕ} {U : Multiset Token} {t : Token} (hown : own) (ha : 1 < a) (ht : t.Closes P docNo) :
      Reckons P own docNo (some a) (some (a - 1)) (U + {t}) U

def refs (channel : Option OpenChannel) : Option ℕ := channel.map fun c => c.refCount

/-- A slot that still has the same document in the same state. -/
structure RecvQuiet (e e' : RecvDocMutable) : Prop where
  docNo : e'.docNo = e.docNo
  doc : e'.doc = e.doc ∨ ∃ d d', e.doc = .active d ∧ e'.doc = .active d'
  channel : ∀ c', e'.channel = some c' → ∃ c, e.channel = some c ∧ (c.replyBuffer = .none → c'.replyBuffer = .none)
  flag : e'.needsSendControl → e.needsSendControl

/-- A slot that still has the same document, and a reply buffer that is still awaiting data if it was. -/
structure SendQuiet (e e' : SendDocMutable) : Prop where
  docNo : e'.docNo = e.docNo
  doc : e'.doc.isSome = e.doc.isSome
  channel : e'.channel.isSome = e.channel.isSome
  reply : ∀ c c', e.channel = some c → e'.channel = some c' →
    c'.replyBuffer = c.replyBuffer ∨ (c'.replyBuffer = .none ∧ ∀ b, c.replyBuffer ≠ .awaiting b)
  flag : e'.needsSendClose → e.needsSendClose

section

variable {T : Type}

def WritesRecv (s s' : SessionInner T) (i : ℕ) (e' : RecvDocMutable) : Prop :=
  s'.view = { s.view with recvTable := s.recvTable.set i e' }

def WritesSend (s s' : SessionInner T) (i : ℕ) (e' : SendDocMutable) : Prop :=
  s'.view = { s.view with sendTable := s.sendTable.set i e' }

/-- What one thread does to a session, and to what everyone has. -/
inductive Change (P : Allows) (s s' : SessionInner T) : Multiset Token → Multiset Token → Prop
  | other {U : Multiset Token} (hs : s'.view = s.view) : Change P s s' U U
  | recv {U U' : Multiset Token} {i : ℕ} {e e' : RecvDocMutable} (he : s.recvTable[i]? = some e) (hq : RecvQuiet e e')
      (hU : Reckons P (¬ s.isSending e.docNo ∧ i = s.recvIdx e.docNo) e.docNo (refs e.channel) (refs e'.channel) U U')
      (hs : WritesRecv s s' i e') : Change P s s' U U'
  | send {U U' : Multiset Token} {i : ℕ} {e e' : SendDocMutable} (he : s.sendTable[i]? = some e) (hq : SendQuiet e e')
      (hU : Reckons P (s.isSending e.docNo ∧ i = s.sendIdx e.docNo) e.docNo (refs e.channel) (refs e'.channel) U U')
      (hs : WritesSend s s' i e') : Change P s s' U U'
  | closeRecv {U : Multiset Token} {docNo : ℕ} {e : RecvDocMutable} {t : Token} (hside : ¬ s.isSending docNo)
      (he : s.recvTable[s.recvIdx docNo]? = some e) (hno : e.docNo = docNo) (hopen : e.channel.isSome) (ht : t ∈ U)
      (hc : t.Closes P docNo) (hs : s'.view = { s.view with
        recvTable := s.recvTable.set (s.recvIdx docNo) { e with channel := none, needsSendControl := true }
        closes := s.closes ++ [docNo] }) : Change P s s' U U
  | closeSend {U : Multiset Token} {docNo : ℕ} {e : SendDocMutable} {t : Token} (hside : s.isSending docNo)
      (he : s.sendTable[s.sendIdx docNo]? = some e) (hno : e.docNo = docNo) (hopen : e.channel.isSome) (ht : t ∈ U)
      (hc : t.Closes P docNo) (hs : s'.view = { s.view with
        sendTable := s.sendTable.set (s.sendIdx docNo) { e with channel := none, needsSendClose := true }
        closes := s.closes ++ [docNo] }) : Change P s s' U U
  | claim {U : Multiset Token} {docNo : ℕ} {e e' : RecvDocMutable} (hside : ¬ s.isSending docNo)
      (he : s.recvTable[s.recvIdx docNo]? = some e) (hlt : e.docNo < docNo) (hfin : e.doc.slotIsFin)
      (hno : e'.docNo = docNo) (hdoc : e'.doc = .activeReserved) (hflag : ¬ e'.needsSendControl)
      (hc : ∀ c, e'.channel = some c → c.refCount = 0 ∧ c.replyBuffer = .none)
      (hs : WritesRecv s s' (s.recvIdx docNo) e') : Change P s s' U (U + {.claim docNo})
  | wait {U : Multiset Token} {docNo : ℕ} {e : RecvDocMutable} (hside : ¬ s.isSending docNo)
      (he : s.recvTable[s.recvIdx docNo]? = some e) (hno : e.docNo = docNo) (hs : s'.view = s.view) :
      Change P s s' U (U + {.waiting docNo})
  | install {U : Multiset Token} {docNo : ℕ} {e : RecvDocMutable} {doc : RecvDoc}
      (he : s.recvTable[s.recvIdx docNo]? = some e) (hno : e.docNo = docNo) (hdoc : e.doc = .activeReserved)
      (hs : WritesRecv s s' (s.recvIdx docNo) { e with doc := .active doc }) : Change P s s' (U + {.claim docNo}) U
  -- a thread that waited finishes what is in the slot under the number of its segment
  | finish {U : Multiset Token} {docNo : ℕ} {e : RecvDocMutable} {doc : RecvDoc} (hside : ¬ s.isSending docNo)
      (he : s.recvTable[s.recvIdx docNo]? = some e) (hdoc : e.doc = .active doc) (hno : e.docNo = docNo ∨ .waiting docNo ∈ U)
      (hs : WritesRecv s s' (s.recvIdx docNo)
        { e with doc := .finishing, channel := e.channel.map OpenChannel.addRef }) : Change P s s' U (U + {.copy docNo})
  | reject {U : Multiset Token} {i : ℕ} {e : RecvDocMutable} {doc : RecvDoc} (he : s.recvTable[i]? = some e)
      (hdoc : e.doc = .active doc) (hs : WritesRecv s s' i { e with doc := .finishing }) : Change P s s' U U
  | retire {U : Multiset Token} {docNo : ℕ} {e : RecvDocMutable} (he : s.recvTable[s.recvIdx docNo]? = some e)
      (hno : e.docNo = docNo) (hs : WritesRecv s s' (s.recvIdx docNo)
        { e with doc := .finParentClose, channel := none, needsSendControl := true }) : Change P s s' (U + {.copy docNo}) U
  | lend {U : Multiset Token} {docNo : ℕ} {e : SendDocMutable} {c : OpenChannel} {range : BufRange} (hP : P.lend)
      (hside : s.isSending docNo) (he : s.sendTable[s.sendIdx docNo]? = some e) (hno : e.docNo = docNo)
      (hc : e.channel = some c) (hr : c.replyBuffer = .awaiting (some range)) (hs : WritesSend s s' (s.sendIdx docNo)
        { e with channel := some { c with replyBuffer := .awaiting none } }) : Change P s s' U (U + {.buffer docNo range})
  | reply {U : Multiset Token} {docNo len : ℕ} {e : SendDocMutable} {c : OpenChannel} {range : BufRange}
      {u : UnreleasedChannel} (he : s.sendTable[s.sendIdx docNo]? = some e) (hno : e.docNo = docNo)
      (hc : e.channel = some c) (hs : WritesSend s s' (s.sendIdx docNo)
        { e with channel := some { c with replyBuffer := .recv len u } }) : Change P s s' (U + {.buffer docNo range}) U
  | openChannel {U : Multiset Token} {docNo : ℕ} {e e' : SendDocMutable} {t : Token} (hP : P.send)
      (hside : s.isSending docNo) (he : s.sendTable[s.sendIdx docNo]? = some e) (hfree : e.channel = none ∧ e.doc = none)
      (hno : e'.docNo = docNo) (hdoc : e'.doc.isSome) (hflag : ¬ e'.needsSendClose)
      (hc : e'.channel = some ⟨1, [], .none⟩ ∧ t = .handle docNo ∨
        ∃ range, e'.channel = some ⟨1, [], .awaiting (some range)⟩ ∧ t = .future docNo range)
      (hs : WritesSend s s' (s.sendIdx docNo) e') : Change P s s' U (U + {t})
  | forget {U : Multiset Token} {t : Token}
      (ht : ∀ docNo range, t = .future docNo range → P.drop docNo ∧ s.channelOf docNo = none) (hs : s'.view = s.view) :
      Change P s s' (U + {t}) U
  | deliver {U : Multiset Token} {docNo : ℕ} (hs : s'.view = s.view) :
      Change P s s' (U + {.copy docNo}) (U + {.handle docNo})
  | clone {U : Multiset Token} {docNo : ℕ} (hc : s.channelOf docNo = none) (hh : .handle docNo ∈ U) (hs : s'.view = s.view) :
      Change P s s' U (U + {.handle docNo})
  | complete {U : Multiset Token} {docNo : ℕ} {range : BufRange}
      (hc : ∀ c, s.channelOf docNo = some c → ∀ b, c.replyBuffer ≠ .awaiting b) (hs : s'.view = s.view) :
      Change P s s' (U + {.future docNo range}) (U + {.handle docNo})
  | count {U : Multiset Token} {sendTotal sendDocNo : ℕ} (hP : P.send)
      (hs : s'.view = { s.view with sendTotal := sendTotal, sendDocNo := sendDocNo }) : Change P s s' U U

/-- Any number of changes. -/
inductive Changes (P : Allows) (s : SessionInner T) (U : Multiset Token) : SessionInner T → Multiset Token → Prop
  | refl : Changes P s U s U
  | tail {s' s'' : SessionInner T} {U' U'' : Multiset Token} (hcs : Changes P s U s' U') (hc : Change P s' s'' U' U'') :
      Changes P s U s'' U''

variable {P : Allows} {s s' s'' : SessionInner T} {U U' U'' R : Multiset Token} {t : Token}

lemma Reckons.frame {own : Prop} {docNo : ℕ} {a a' : Option ℕ} (h : Reckons P own docNo a a' U U') (R : Multiset Token) :
    Reckons P own docNo a a' (U + R) (U' + R) := by
  cases h with
  | same => exact .same
  | closed => exact .closed
  | add hown hh =>
    rw [add_right_comm]
    exact .add hown (Multiset.mem_add.mpr (.inl hh))
  | drop hown ha ht =>
    rw [add_right_comm]
    exact .drop hown ha ht

lemma Change.frame (h : Change P s s' U U') (R : Multiset Token) : Change P s s' (U + R) (U' + R) := by
  have hmem {U : Multiset Token} {t : Token} (h : t ∈ U) : t ∈ U + R := Multiset.mem_add.mpr (.inl h)
  cases h with
  | other hs => exact .other hs
  | recv he hq hU hs => exact .recv he hq (hU.frame R) hs
  | send he hq hU hs => exact .send he hq (hU.frame R) hs
  | closeRecv hside he hno hopen ht hc hs => exact .closeRecv hside he hno hopen (hmem ht) hc hs
  | closeSend hside he hno hopen ht hc hs => exact .closeSend hside he hno hopen (hmem ht) hc hs
  | claim hside he hlt hfin hno hdoc hflag hc hs =>
    rw [add_right_comm]
    exact .claim hside he hlt hfin hno hdoc hflag hc hs
  | wait hside he hno hs =>
    rw [add_right_comm]
    exact .wait hside he hno hs
  | install he hno hdoc hs =>
    rw [add_right_comm]
    exact .install he hno hdoc hs
  | finish hside he hdoc hno hs =>
    rw [add_right_comm]
    exact .finish hside he hdoc (hno.imp_right hmem) hs
  | reject he hdoc hs => exact .reject he hdoc hs
  | retire he hno hs =>
    rw [add_right_comm]
    exact .retire he hno hs
  | lend hP hside he hno hc hr hs =>
    rw [add_right_comm]
    exact .lend hP hside he hno hc hr hs
  | reply he hno hc hs =>
    rw [add_right_comm]
    exact .reply he hno hc hs
  | openChannel hP hside he hfree hno hdoc hflag hc hs =>
    rw [add_right_comm]
    exact .openChannel hP hside he hfree hno hdoc hflag hc hs
  | forget ht hs =>
    rw [add_right_comm]
    exact .forget ht hs
  | deliver hs =>
    rw [add_right_comm, add_right_comm _ {_} R]
    exact .deliver hs
  | clone hc hh hs =>
    rw [add_right_comm]
    exact .clone hc (hmem hh) hs
  | complete hc hs =>
    rw [add_right_comm, add_right_comm _ {_} R]
    exact .complete hc hs
  | count hP hs => exact .count hP hs

namespace Changes

lemma single (h : Change P s s' U U') : Changes P s U s' U' := .tail .refl h

lemma trans (h : Changes P s U s' U') (h' : Changes P s' U' s'' U'') : Changes P s U s'' U'' := by
  induction h' with
  | refl => exact h
  | tail _ hc ih => exact ih.tail hc

lemma frame (h : Changes P s U s' U') (R : Multiset Token) : Changes P s (U + R) s' (U' + R) := by
  induction h with
  | refl => exact .refl
  | tail _ hc ih => exact ih.tail (hc.frame R)

end Changes

end

end Pqsnet.Session
