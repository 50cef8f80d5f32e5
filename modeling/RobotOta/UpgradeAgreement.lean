import RobotOta.AnswerLink
import RobotOta.BoardUpgrade

/-!
# What the board received when an upgrade succeeds

Runs of `upgrade` over a link that loses and delays, with a board that handles
commands in order and answers each at most once. Retries leave answers behind,
but the commands of one chunk take turns, so an answer left behind by one step
is dropped before a later step of its kind begins.
-/

namespace RobotOta.UpgradeAgreement

open CanFrameCodec CanReassembly HexLoader RequestProgram BoardUpgrade AnswerLink

/-- The link to the board under upgrade. -/
abbrev BoardLink := Link (List Byte) CanPacket

/-- A command of this kind. -/
def IsKind (codes : MessageCodes) (kind : MessageKind) (message : List Byte) : Prop :=
  message.head? = some (codes.cmd kind)

/-- What the board may answer: the response type of the command, and a status
byte if it is a CRC command. What the status says about the data is left open.
That a CRC answer has its status byte is an assumption: the byte of a shorter
one stays zero in `ret_data`, and is taken for success. -/
def BoardReplies (codes : MessageCodes) (module : Byte) (message : List Byte)
    (packet : CanPacket) : Prop :=
  ∃ kind, IsKind codes kind message ∧ packet.srcId = module ∧
    packet.pData.head? = some (codes.resp kind) ∧
    (kind = .dataCRC → ∃ status, packet.pData[2]? = some status)

/-- A packet of another module. -/
def ForeignPacket (module : Byte) (packet : CanPacket) : Prop := packet.srcId ≠ module

section Run

variable (codes : MessageCodes) (module : Byte) (load : String → ℕ → Option HexImage)

/-- What a request does to the link. A send may fail or lie about it, a read
may give up at any moment; an expected packet is accepted, any other dropped. -/
def perform : Effect UpdateRequest UpdateAnswer BoardLink
  | .sendCANData _ dId pdata, link, _, link' =>
    if dId = module then ∃ sent, link' = link.issue pdata sent else link' = link
  | .sockFd, link, _, link' => link' = link
  | .waitRounds _, link, _, link' => link' = link
  | .popFromRecvList expSId expMsgType, link, packet, link' =>
    match link.queue with
    | [] => packet = none ∧ link' = link
    | item :: _ => packet = some item.2 ∧
        link' = if expected expSId expMsgType item.2 then link.accept item else link.discard
  | .loadHex file addrBytes, link, image, link' => image = load file addrBytes ∧ link' = link
  | .downloadProgress .., link, _, link' => link' = link
  | .ensurePathMounted _, link, _, link' => link' = link
  | .openCANDevice, link, _, link' => link' = link
  | .closeCANDevice, link, _, link' => link' = link

/-- Any traffic may pass in front of a request. -/
def linkEffect : Effect UpdateRequest UpdateAnswer BoardLink :=
  fun r link answer link' => ∃ between,
    Traffics (BoardReplies codes module) (ForeignPacket module) link between ∧
      perform module load r between answer link'

end Run

/-- How a read inside an exchange ends. -/
inductive Heard (codes : MessageCodes) (module resp : Byte) (start : BoardLink)
    (data : List Byte) (copies : ℕ) : Int × List Byte → BoardLink → Prop where
  | silence {link : BoardLink} :
    During (BoardReplies codes module) (ForeignPacket module) start data copies link →
      Heard codes module resp start data copies (-1, []) link
  | answer {link : BoardLink} {packet : CanPacket} :
    expected module resp packet →
      Answered (BoardReplies codes module) (ForeignPacket module) start data copies packet link →
      Heard codes module resp start data copies
        ((packet.pData.length : Int), packet.pData.take 3) link

/-- How an exchange of at most so many copies ends. -/
inductive ExchangeEnd (codes : MessageCodes) (module resp : Byte) (start : BoardLink)
    (data : List Byte) (deal : List Byte → Int) (total : ℕ) : Int × ℕ → BoardLink → Prop where
  | failed {link : BoardLink} {ret : Int} {copies : ℕ} :
    ret ≠ 0 →
      During (BoardReplies codes module) (ForeignPacket module) start data copies link →
      ExchangeEnd codes module resp start data deal total (ret, 0) link
  | answered {link : BoardLink} {packet : CanPacket} {copies left : ℕ} :
    1 ≤ copies → copies + left = total → expected module resp packet →
      Answered (BoardReplies codes module) (ForeignPacket module) start data copies packet link →
      ExchangeEnd codes module resp start data deal total (deal (packet.pData.take 3), left) link

section Exchange

variable {codes : MessageCodes} {module : Byte} {load : String → ℕ → Option HexImage}
  {start link link' : BoardLink} {kind : MessageKind} {data : List Byte} {copies : ℕ}

/-- A packet of a response type answers commands of its kind only. -/
theorem isKind_of_expected {packet : CanPacket} (h : expected module (codes.resp kind) packet)
    (message : List Byte) (hreplies : BoardReplies codes module message packet) :
    IsKind codes kind message := by
  obtain ⟨kind', hkind', -, hresp, -⟩ := hreplies
  rw [h.2] at hresp
  rwa [← codes.resp_injective (Option.some.inj hresp)] at hkind'

/-- The read loop drops what it does not expect. -/
theorem readLoop_heard {rounds : ℕ} {result : Int × List Byte}
    (hquiet : Quiet (IsKind codes kind) start)
    (hduring : During (BoardReplies codes module) (ForeignPacket module) start data copies link)
    (hrun : Exec (linkEffect codes module load) link
      (readLoop module (codes.resp kind) 3 rounds) result link') :
    Heard codes module (codes.resp kind) start data copies result link' := by
  -- One round, whatever comes behind it.
  have hround : ∀ {otherwise : UpdateM (Int × List Byte)},
      (∀ {link}, During (BoardReplies codes module) (ForeignPacket module) start data copies
          link → Exec (linkEffect codes module load) link otherwise result link' →
        Heard codes module (codes.resp kind) start data copies result link') →
      ∀ {link}, During (BoardReplies codes module) (ForeignPacket module) start data copies
          link → Exec (linkEffect codes module load) link
            (readRound module (codes.resp kind) 3 otherwise) result link' →
        Heard codes module (codes.resp kind) start data copies result link' := by
    intro otherwise hother link hduring hrun
    obtain ⟨packet, popped, hpop, hrest⟩ := exec_bind.mp hrun
    obtain ⟨between, htraffic, hpop⟩ := exec_ask.mp hpop
    have hbetween := hduring.traffics htraffic
    dsimp only [perform] at hpop
    cases hqueue : between.queue with
    | nil =>
      rw [hqueue] at hpop
      obtain ⟨rfl, rfl⟩ := hpop
      exact hother hbetween hrest
    | cons item rest =>
      rw [hqueue] at hpop
      obtain ⟨rfl, rfl⟩ := hpop
      dsimp only at hrest
      split_ifs at hrest with hexpected
      · obtain ⟨rfl, rfl⟩ := exec_pure.mp hrest
        refine Heard.answer hexpected (hbetween.accept hquiet hqueue ?_ ?_)
        · exact fun hforeign => hforeign hexpected.1
        · exact fun asked hreplies => isKind_of_expected hexpected asked hreplies
      · exact hother hbetween.discard hrest
  induction rounds generalizing link with
  | zero =>
    refine hround ?_ hduring hrun
    intro link hduring hrun
    obtain ⟨rfl, rfl⟩ := exec_pure.mp hrun
    exact Heard.silence hduring
  | succ rounds ih => exact hround ih hduring hrun

/-- A read inside an exchange accepts an answer to one of its copies, or none. -/
theorem readCANData_heard {timeout : ℕ} {result : Int × List Byte}
    (hquiet : Quiet (IsKind codes kind) start)
    (hduring : During (BoardReplies codes module) (ForeignPacket module) start data copies link)
    (hrun : Exec (linkEffect codes module load) link
      (readCANData module (codes.resp kind) 3 timeout) result link') :
    Heard codes module (codes.resp kind) start data copies result link' := by
  unfold readCANData at hrun
  obtain ⟨fd, opened, hfd, hrest⟩ := exec_bind.mp hrun
  obtain ⟨between, htraffic, rfl⟩ := exec_ask.mp hfd
  have hopened := hduring.traffics htraffic
  split_ifs at hrest
  · obtain ⟨rfl, rfl⟩ := exec_pure.mp hrest
    exact Heard.silence hopened
  · obtain ⟨rounds, waited, hwait, hloop⟩ := exec_bind.mp hrest
    obtain ⟨between, htraffic, rfl⟩ := exec_ask.mp hwait
    exact readLoop_heard hquiet (hopened.traffics htraffic) hloop

/-- The retry loop ends with the answer to one of its copies, or fails. -/
theorem exchange_ends {sId : Byte} {timeout count : ℕ} {deal : List Byte → Int} {ret : Int}
    {result : Int × ℕ} (hquiet : Quiet (IsKind codes kind) start)
    (hduring : During (BoardReplies codes module) (ForeignPacket module) start data copies link)
    (hret : ret ≠ 0)
    (hrun : Exec (linkEffect codes module load) link
      (exchange sId module data (codes.resp kind) timeout deal count ret) result link') :
    ExchangeEnd codes module (codes.resp kind) start data deal (copies + count) result link' := by
  induction count generalizing link ret copies with
  | zero =>
    obtain ⟨rfl, rfl⟩ := exec_pure.mp hrun
    exact ExchangeEnd.failed hret hduring
  | succ count ih =>
    obtain ⟨sent, issued, hsend, hrest⟩ := exec_bind.mp hrun
    obtain ⟨between, htraffic, hissue⟩ := exec_ask.mp hsend
    dsimp only [perform] at hissue
    rw [if_pos rfl] at hissue
    obtain ⟨onLink, rfl⟩ := hissue
    have hissued := (hduring.traffics htraffic).issue onLink
    rw [show copies + (count + 1) = copies + 1 + count by omega]
    split_ifs at hrest with hsent
    · exact ih hissued hsent hrest
    · obtain ⟨read, heard, hread, hdeal⟩ := exec_bind.mp hrest
      cases readCANData_heard hquiet hissued hread with
      | silence hsilent => exact ih hsilent (by decide) hdeal
      | @answer _ packet hexpected hanswered =>
        have hlength : 0 < (packet.pData.length : Int) := by
          cases hdata : packet.pData with
          | nil => exact absurd hexpected.2 (by simp [hdata])
          | cons byte rest => simp
        dsimp only at hdeal
        rw [if_pos hlength] at hdeal
        obtain ⟨rfl, rfl⟩ := exec_pure.mp hdeal
        exact ExchangeEnd.answered (by omega) rfl hexpected hanswered

end Exchange

/-- An accepted answer serves a message: it is to a copy of it, and if the
message is a CRC command, the answer has status zero. -/
def Serves (codes : MessageCodes) (issued : List (List Byte)) (message : List Byte)
    (acceptance : Accepted (List Byte) CanPacket) : Prop :=
  ∃ number, acceptance.number = some number ∧ issued[number]? = some message ∧
    (IsKind codes .dataCRC message → acceptance.answer.pData[2]? = some 0)

/-- Part of a run that keeps the link in order and accepts, among others and in
this order, answers that serve the messages. -/
structure Advance (codes : MessageCodes) (module : Byte) (messages : List (List Byte))
    (link link' : BoardLink) : Prop where
  /-- The link is still in order. -/
  wellFormed : WellFormed (BoardReplies codes module) (ForeignPacket module) link'
  /-- Nothing old can be taken for a new answer. -/
  fresh : Fresh link'
  /-- What was issued stays issued. -/
  issued_prefix : link.issued <+: link'.issued
  /-- Every message has an answer of its own among the new ones, in order. -/
  served : ∃ news, link'.accepted = link.accepted ++ news ∧ ∃ fulfilled,
    fulfilled.Sublist news ∧ List.Forall₂ (Serves codes link'.issued) messages fulfilled

section Advance

variable {codes : MessageCodes} {module : Byte} {start link link' link'' : BoardLink}
  {messages messages' : List (List Byte)} {data : List Byte} {copies : ℕ} {packet : CanPacket}

/-- Doing nothing serves nothing. -/
theorem Advance.refl (hwf : WellFormed (BoardReplies codes module) (ForeignPacket module) link)
    (hfresh : Fresh link) : Advance codes module [] link link :=
  ⟨hwf, hfresh, List.prefix_rfl, [], by simp, [], List.Sublist.refl _, List.Forall₂.nil⟩

/-- One part after the other. -/
theorem Advance.trans (h : Advance codes module messages link link')
    (h' : Advance codes module messages' link' link'') :
    Advance codes module (messages ++ messages') link link'' := by
  obtain ⟨news, hnews, fulfilled, hsub, hserved⟩ := h.served
  obtain ⟨news', hnews', fulfilled', hsub', hserved'⟩ := h'.served
  refine ⟨h'.wellFormed, h'.fresh, h.issued_prefix.trans h'.issued_prefix, news ++ news', ?_,
    fulfilled ++ fulfilled', hsub.append hsub', ?_⟩
  · rw [hnews', hnews, List.append_assoc]
  · refine List.rel_append (hserved.imp ?_) hserved'
    rintro message acceptance ⟨number, hnumber, hmessage, hstatus⟩
    exact ⟨number, hnumber, getElem?_of_prefix h'.issued_prefix hmessage, hstatus⟩

/-- What was served need not be told. -/
theorem Advance.forget (h : Advance codes module messages link link') :
    Advance codes module [] link link' := by
  obtain ⟨news, hnews, -⟩ := h.served
  exact ⟨h.wellFormed, h.fresh, h.issued_prefix, news, hnews, [], List.nil_sublist _,
    List.Forall₂.nil⟩

/-- An exchange without an accepted answer. -/
theorem advance_of_during
    (h : During (BoardReplies codes module) (ForeignPacket module) start data copies link)
    (hfresh : Fresh start) : Advance codes module [] start link :=
  ⟨h.wellFormed, h.fresh hfresh, ⟨_, h.issued_eq.symm⟩, [], by simp [h.accepted_eq], [],
    List.Sublist.refl _, List.Forall₂.nil⟩

/-- An exchange with an accepted answer. -/
theorem advance_of_answered
    (hwf : WellFormed (BoardReplies codes module) (ForeignPacket module) start)
    (hfresh : Fresh start)
    (h : Answered (BoardReplies codes module) (ForeignPacket module) start data copies packet link)
    (hstatus : IsKind codes .dataCRC data → packet.pData[2]? = some 0) :
    Advance codes module [data] start link := by
  obtain ⟨number, hlow, hhigh, -, haccepted⟩ := h.accepted_copy
  have hcopy : link.issued[number]? = some data := by
    rw [h.issued_eq] at hhigh ⊢
    exact getElem?_copy hlow hhigh
  exact ⟨h.wellFormed, h.fresh hwf.mark_le hfresh, ⟨_, h.issued_eq.symm⟩, _, haccepted, _,
    List.Sublist.refl _, List.Forall₂.cons ⟨number, rfl, hcopy, hstatus⟩ List.Forall₂.nil⟩

/-- The status of an accepted CRC answer is a byte that came. -/
theorem status_of_dealCRC
    (h : Answered (BoardReplies codes module) (ForeignPacket module) start data copies packet link)
    (hdeal : dealCRC (packet.pData.take 3) = 0) :
    IsKind codes .dataCRC data → packet.pData[2]? = some 0 := by
  intro hkind
  obtain ⟨number, hlow, hhigh, -, haccepted⟩ := h.accepted_copy
  have hgiven := h.wellFormed.accepted_given ⟨some number, packet, start.mark, some data⟩
    (by simp [haccepted]) number rfl
  obtain ⟨asked, hasked, kind, hasks, -, -, hstatus⟩ := h.wellFormed.replies number packet hgiven
  rw [h.issued_eq] at hasked hhigh
  rw [getElem?_copy hlow hhigh] at hasked
  obtain rfl := Option.some.inj hasked
  obtain rfl : kind = .dataCRC :=
    codes.cmd_injective (Option.some.inj (hasks.symm.trans hkind))
  obtain ⟨status, hbyte⟩ := hstatus rfl
  have htake : (packet.pData.take 3).getD 2 0 = status := by
    rw [List.getD_eq_getElem?_getD, List.getElem?_take_of_lt (by decide), hbyte]
    rfl
  unfold dealCRC at hdeal
  rw [htake] at hdeal
  split_ifs at hdeal with hzero
  rw [hbyte, hzero]

/-- Traffic is no more than that. -/
theorem Advance.of_traffics
    (hwf : WellFormed (BoardReplies codes module) (ForeignPacket module) link)
    (hfresh : Fresh link)
    (h : Traffics (BoardReplies codes module) (ForeignPacket module) link link') :
    Advance codes module [] link link' := by
  have hduring : During (BoardReplies codes module) (ForeignPacket module) link [] 0 link :=
    During.refl hwf
  exact advance_of_during (hduring.traffics h) hfresh

end Advance

section Commands

variable {codes : MessageCodes} {ids : ModuleIds} {module : Byte}
  {load : String → ℕ → Option HexImage} {link link' : BoardLink} {kind : MessageKind}
  {data : List Byte}

/-- A message is of one kind only. -/
theorem IsKind.unique {other : MessageKind} (h : IsKind codes kind data)
    (h' : IsKind codes other data) : other = kind :=
  codes.cmd_injective (Option.some.inj (h'.symm.trans h))

/-- An exchange that ends with zero serves its message and leaves at most
answers of its own kind behind. -/
theorem exchange_serves {sId : Byte} {timeout count left : ℕ} {deal : List Byte → Int}
    {ret : Int} (hkind : IsKind codes kind data) (hdeal : kind = .dataCRC → deal = dealCRC)
    (hret : ret ≠ 0)
    (hwf : WellFormed (BoardReplies codes module) (ForeignPacket module) link)
    (hfresh : Fresh link) (hquiet : Quiet (IsKind codes kind) link)
    (hrun : Exec (linkEffect codes module load) link
      (exchange sId module data (codes.resp kind) timeout deal count ret) (0, left) link') :
    Advance codes module [data] link link' ∧
      (∀ other, other ≠ kind → Quiet (IsKind codes other) link') ∧
      left < count ∧ (left + 1 = count → link'.pending = []) := by
  have hend := exchange_ends hquiet (During.refl hwf) hret hrun
  generalize hresult : ((0 : Int), left) = result at hend
  cases hend with
  | failed hfailed hduring => exact absurd (congrArg Prod.fst hresult).symm hfailed
  | @answered _ packet copies left' _ hcopies hexpected hanswered =>
    have hzero : 0 = deal (packet.pData.take 3) := congrArg Prod.fst hresult
    obtain rfl : left = left' := congrArg Prod.snd hresult
    refine ⟨advance_of_answered hwf hfresh hanswered ?_, ?_, by omega, ?_⟩
    · intro hcrc
      rw [hdeal (IsKind.unique hcrc hkind)] at hzero
      exact status_of_dealCRC hanswered hzero.symm hcrc
    · intro other hother
      exact hanswered.quiet fun h => hother (IsKind.unique hkind h)
    · intro hleft
      obtain rfl : copies = 1 := by omega
      exact hanswered.pending_eq_nil

/-- However an exchange ends, it keeps the link in order and the other kinds
quiet; if any answer will do, failing uses up all copies. -/
theorem exchange_advances {sId : Byte} {timeout count : ℕ} {deal : List Byte → Int} {ret : Int}
    {result : Int × ℕ} (hkind : IsKind codes kind data) (hret : ret ≠ 0)
    (hwf : WellFormed (BoardReplies codes module) (ForeignPacket module) link)
    (hfresh : Fresh link) (hquiet : Quiet (IsKind codes kind) link)
    (hrun : Exec (linkEffect codes module load) link
      (exchange sId module data (codes.resp kind) timeout deal count ret) result link') :
    Advance codes module [] link link' ∧
      (∀ other, other ≠ kind → Quiet (IsKind codes other) link →
        Quiet (IsKind codes other) link') ∧
      (deal = dealAny → result.1 ≠ 0 → result.2 = 0) := by
  cases exchange_ends hquiet (During.refl hwf) hret hrun with
  | failed _ hduring =>
    refine ⟨advance_of_during hduring hfresh, ?_, fun _ _ => rfl⟩
    intro other hother hold
    exact hduring.quiet hold fun h => hother (IsKind.unique hkind h)
  | answered _ _ _ hanswered =>
    refine ⟨?_, ?_, ?_⟩
    · obtain ⟨number, -, -, -, haccepted⟩ := hanswered.accepted_copy
      exact ⟨hanswered.wellFormed, hanswered.fresh hwf.mark_le hfresh,
        ⟨_, hanswered.issued_eq.symm⟩, _, haccepted, [], List.nil_sublist _, List.Forall₂.nil⟩
    · intro other hother _
      exact hanswered.quiet fun h => hother (IsKind.unique hkind h)
    · rintro rfl hne
      exact absurd rfl hne

/-- A command that any answer will do for. -/
theorem command_serves {sId : Byte} {timeout : ℕ} (hkind : IsKind codes kind data)
    (hother : kind ≠ .dataCRC)
    (hwf : WellFormed (BoardReplies codes module) (ForeignPacket module) link)
    (hfresh : Fresh link) (hquiet : Quiet (IsKind codes kind) link)
    (hrun : Exec (linkEffect codes module load) link
      (do let (ret, _) ← exchange sId module data (codes.resp kind) timeout dealAny resendCount (-1)
          pure ret) 0 link') :
    Advance codes module [data] link link' ∧
      ∀ other, other ≠ kind → Quiet (IsKind codes other) link' := by
  obtain ⟨⟨ret, left⟩, middle, hexchange, hret⟩ := exec_bind.mp hrun
  obtain ⟨rfl, rfl⟩ := exec_pure.mp hret
  obtain ⟨hadvance, hquiet', -, -⟩ := exchange_serves hkind (fun h => absurd h hother)
    (by decide) hwf hfresh hquiet hexchange
  exact ⟨hadvance, hquiet'⟩

/-- The messages of one chunk. -/
def chunkMessages (codes : MessageCodes) (buf : List Byte) : List (List Byte) :=
  [dataMessage codes buf, crcMessage codes (crc16 buf)]

/-- The rounds of a chunk, if they succeed, serve its DATA and then its CRC
command. A second DATA exchange happens only if the first used a single copy,
and then none of its answers is left behind. -/
theorem dataRounds_serves {buf : List Byte} {total : BitVec 32} {count dataCount : ℕ} {ret : Int}
    {before after : BitVec 32} (hret : ret ≠ 0) (hcount : dataCount ≤ 2)
    (hwf : WellFormed (BoardReplies codes module) (ForeignPacket module) link)
    (hfresh : Fresh link)
    (hquiet : dataCount = 0 ∨ Quiet (IsKind codes .firmwareData) link)
    (hrun : Exec (linkEffect codes module load) link
      (dataRounds codes ids module buf total count dataCount ret before) (0, after) link') :
    Advance codes module (chunkMessages codes buf) link link' ∧
      ∀ other, other ≠ .dataCRC → Quiet (IsKind codes other) link' := by
  have hdataKind : IsKind codes .firmwareData (dataMessage codes buf) := rfl
  have hcrcKind : IsKind codes .dataCRC (crcMessage codes (crc16 buf)) := rfl
  induction count generalizing dataCount ret link with
  | zero =>
    have hzero := (exec_pure.mp hrun).1
    exact absurd (congrArg Prod.fst hzero).symm hret
  | succ count ih =>
    obtain ⟨⟨ret', dataCount'⟩, sent, hdata, hrest⟩ := exec_bind.mp hrun
    dsimp only at hrest
    rcases hquiet with rfl | hquiet
    · -- No DATA command is left to send.
      obtain ⟨hend, rfl⟩ := exec_pure.mp hdata
      obtain rfl : ret' = ret := congrArg Prod.fst hend
      obtain rfl : dataCount' = 0 := congrArg Prod.snd hend
      rw [if_neg hret] at hrest
      exact ih hret hcount hwf hfresh (Or.inl rfl) hrest
    split_ifs at hrest with hzero
    · subst hzero
      obtain ⟨hsent, hothers, hless, hfirst⟩ :=
        exchange_serves hdataKind (by simp) hret hwf hfresh hquiet hdata
      obtain ⟨crcRet, checked, hcrc, hend⟩ := exec_bind.mp hrest
      obtain ⟨⟨ret', left⟩, middle, hexchange, hpure⟩ := exec_bind.mp hcrc
      obtain ⟨rfl, rfl⟩ := exec_pure.mp hpure
      have hcrcQuiet := hothers .dataCRC (by decide)
      split_ifs at hend with hcrcZero
      · subst hcrcZero
        obtain ⟨hchecked, hquiet', -, -⟩ := exchange_serves hcrcKind (fun _ => rfl) (by decide)
          hsent.wellFormed hsent.fresh hcrcQuiet hexchange
        obtain ⟨_, shown, hprogress, hpure⟩ := exec_bind.mp hend
        obtain ⟨-, rfl⟩ := exec_pure.mp hpure
        obtain ⟨between, htraffic, rfl⟩ := exec_ask.mp hprogress
        refine ⟨?_, fun other hother => (hquiet' other hother).traffics htraffic⟩
        exact (hsent.trans hchecked).trans
          (Advance.of_traffics hchecked.wellFormed hchecked.fresh htraffic)
      · obtain ⟨hchecked, hkept, -⟩ := exchange_advances hcrcKind (by decide)
          hsent.wellFormed hsent.fresh hcrcQuiet hexchange
        have hleft : dataCount' = 0 ∨ Quiet (IsKind codes .firmwareData) checked := by
          rcases Nat.eq_zero_or_pos dataCount' with hnone | hsome
          · exact Or.inl hnone
          · exact Or.inr (hkept _ (by decide) (quiet_of_nil (hfirst (by omega))))
        obtain ⟨hadvance, hquiet'⟩ :=
          ih hcrcZero (by omega) hchecked.wellFormed hchecked.fresh hleft hend
        exact ⟨(hsent.forget.trans hchecked).trans hadvance, hquiet'⟩
    · obtain ⟨hsent, -, hnone⟩ := exchange_advances hdataKind hret hwf hfresh hquiet hdata
      obtain rfl : dataCount' = 0 := hnone rfl hzero
      obtain ⟨hadvance, hquiet'⟩ :=
        ih hzero (by omega) hsent.wellFormed hsent.fresh (Or.inl rfl) hrest
      exact ⟨hsent.trans hadvance, hquiet'⟩

/-- `sendFirmwareData`, if it succeeds, serves the two messages of its chunk. -/
theorem sendFirmwareData_serves {buf : List Byte} {total before after : BitVec 32}
    (hwf : WellFormed (BoardReplies codes module) (ForeignPacket module) link)
    (hfresh : Fresh link) (hquiet : Quiet (IsKind codes .firmwareData) link)
    (hrun : Exec (linkEffect codes module load) link
      (sendFirmwareData codes ids module buf total before) (0, after) link') :
    Advance codes module (chunkMessages codes buf) link link' ∧
      ∀ other, other ≠ .dataCRC → Quiet (IsKind codes other) link' :=
  dataRounds_serves (by decide) (by decide) hwf hfresh (Or.inr hquiet) hrun

/-- So many packets of full length from the front of the data. -/
def fullChunks : (packets : ℕ) → (data : List Byte) → List (List Byte)
  | 0, _ => []
  | packets + 1, data =>
    data.take dataPacketLength :: fullChunks packets (data.drop dataPacketLength)

/-- The chunks of an element: full packets, then the rest. -/
def chunks (data : List Byte) : List (List Byte) :=
  fullChunks (packetNum data.length - 1) data ++
    [data.drop ((packetNum data.length - 1) * dataPacketLength)]

/-- The full packets are the front of the data. -/
theorem fullChunks_flatten (packets : ℕ) (data : List Byte) :
    (fullChunks packets data).flatten = data.take (packets * dataPacketLength) := by
  induction packets generalizing data with
  | zero => simp [fullChunks]
  | succ packets ih =>
    rw [fullChunks, List.flatten_cons, ih, ← List.take_add, Nat.succ_mul, Nat.add_comm]

/-- Nothing is left out and nothing added. -/
theorem chunks_flatten (data : List Byte) : (chunks data).flatten = data := by
  rw [chunks, List.flatten_append, fullChunks_flatten, List.flatten_singleton,
    List.take_append_drop]

/-- The messages of an element. -/
def elementMessages (codes : MessageCodes) (element : ImageElement) : List (List Byte) :=
  addressMessage codes element.address :: (chunks element.data).flatMap (chunkMessages codes)

/-- The messages of an upgrade. -/
def upgradeMessages (codes : MessageCodes) (image : HexImage) : List (List Byte) :=
  startMessage codes :: (image.elements.flatMap (elementMessages codes) ++ [endMessage codes])

/-- The loop over full packets serves their chunks, and the next chunk can follow. -/
theorem sendFullPackets_serves {total : BitVec 32} {packets : ℕ} {data : List Byte}
    {before after : BitVec 32}
    (hwf : WellFormed (BoardReplies codes module) (ForeignPacket module) link)
    (hfresh : Fresh link) (hquiet : Quiet (IsKind codes .firmwareData) link)
    (hrun : Exec (linkEffect codes module load) link
      (sendFullPackets codes ids module total packets data before) (0, after) link') :
    Advance codes module ((fullChunks packets data).flatMap (chunkMessages codes)) link link' ∧
      Quiet (IsKind codes .firmwareData) link' := by
  induction packets generalizing data before link with
  | zero =>
    obtain ⟨-, rfl⟩ := exec_pure.mp hrun
    exact ⟨Advance.refl hwf hfresh, hquiet⟩
  | succ packets ih =>
    obtain ⟨⟨ret, sended⟩, middle, hfirst, hrest⟩ := exec_bind.mp hrun
    dsimp only at hrest
    obtain ⟨rfl, hrest⟩ := exec_passed (by simp) hrest
    obtain ⟨hchunk, hothers⟩ := sendFirmwareData_serves hwf hfresh hquiet hfirst
    obtain ⟨hmore, hquiet'⟩ :=
      ih hchunk.wellFormed hchunk.fresh (hothers _ (by decide)) hrest
    exact ⟨hchunk.trans hmore, hquiet'⟩

/-- The data step of an element serves all of its chunks. -/
theorem sendElementData_serves {total : BitVec 32} {data : List Byte} {before after : BitVec 32}
    (hwf : WellFormed (BoardReplies codes module) (ForeignPacket module) link)
    (hfresh : Fresh link) (hquiet : Quiet (IsKind codes .firmwareData) link)
    (hrun : Exec (linkEffect codes module load) link
      (sendElementData codes ids module total data before) (0, after) link') :
    Advance codes module ((chunks data).flatMap (chunkMessages codes)) link link' ∧
      ∀ other, other ≠ .dataCRC → Quiet (IsKind codes other) link' := by
  unfold sendElementData at hrun
  split_ifs at hrun with hshort
  · obtain ⟨⟨ret, sended⟩, middle, hsend, hret⟩ := exec_bind.mp hrun
    dsimp only at hret
    obtain ⟨rfl, hret⟩ := exec_passed (by simp) hret
    obtain ⟨-, rfl⟩ := exec_pure.mp hret
    have hone : chunks data = [data] := by
      have hnum : packetNum data.length - 1 = 0 := by
        unfold packetNum dataPacketLength at *
        split_ifs <;> omega
      simp [chunks, hnum, fullChunks]
    rw [hone, List.flatMap_singleton]
    exact sendFirmwareData_serves hwf hfresh hquiet hsend
  · dsimp only at hrun
    obtain ⟨⟨ret, sended⟩, full, hfull, hrest⟩ := exec_bind.mp hrun
    dsimp only at hrest
    obtain ⟨rfl, hrest⟩ := exec_passed (by simp) hrest
    obtain ⟨hpackets, hnext⟩ := sendFullPackets_serves hwf hfresh hquiet hfull
    obtain ⟨⟨ret, sended'⟩, middle, hsend, hret⟩ := exec_bind.mp hrest
    dsimp only at hret
    obtain ⟨rfl, hret⟩ := exec_passed (by simp) hret
    obtain ⟨-, rfl⟩ := exec_pure.mp hret
    rw [List.take_of_length_le (by rw [List.length_drop])] at hsend
    obtain ⟨hlast, hothers⟩ :=
      sendFirmwareData_serves hpackets.wellFormed hpackets.fresh hnext hsend
    refine ⟨?_, hothers⟩
    rw [chunks, List.flatMap_append, List.flatMap_singleton]
    exact hpackets.trans hlast

/-- The loop over the elements serves each in order. -/
theorem sendElements_serves {total : BitVec 32} {elements : List ImageElement}
    {before after : BitVec 32}
    (hwf : WellFormed (BoardReplies codes module) (ForeignPacket module) link)
    (hfresh : Fresh link) (haddress : Quiet (IsKind codes .dataAddress) link)
    (hend : Quiet (IsKind codes .endFlag) link)
    (hrun : Exec (linkEffect codes module load) link
      (sendElements codes ids module total elements before) (0, after) link') :
    Advance codes module (elements.flatMap (elementMessages codes)) link link' ∧
      Quiet (IsKind codes .endFlag) link' := by
  induction elements generalizing before link with
  | nil =>
    obtain ⟨-, rfl⟩ := exec_pure.mp hrun
    exact ⟨Advance.refl hwf hfresh, hend⟩
  | cons element elements ih =>
    obtain ⟨ret, addressed, hsend, hrest⟩ := exec_bind.mp hrun
    obtain ⟨rfl, hrest⟩ := exec_passed (by simp) hrest
    have hkind : IsKind codes .dataAddress (addressMessage codes element.address) := rfl
    obtain ⟨hfirst, hothers⟩ := command_serves hkind (by decide) hwf hfresh haddress hsend
    obtain ⟨⟨ret, sended⟩, middle, hdata, hmore⟩ := exec_bind.mp hrest
    dsimp only at hmore
    obtain ⟨rfl, hmore⟩ := exec_passed (by simp) hmore
    obtain ⟨hchunks, hquiet⟩ :=
      sendElementData_serves hfirst.wellFormed hfirst.fresh (hothers _ (by decide)) hdata
    obtain ⟨hlater, hend'⟩ := ih hchunks.wellFormed hchunks.fresh (hquiet _ (by decide))
      (hquiet _ (by decide)) hmore
    exact ⟨(hfirst.trans hchunks).trans hlater, hend'⟩

end Commands

/-- The link when an upgrade begins: nothing of this module is under way, and
packets of other modules may wait in the queue. -/
structure Start (module : Byte) (link : BoardLink) : Prop where
  /-- Nothing has been issued. -/
  issued_nil : link.issued = []
  /-- No command is on its way. -/
  commands_nil : link.commands = []
  /-- The board has handled none. -/
  handled_nil : link.handled = []
  /-- No answer is on its way. -/
  answers_nil : link.answers = []
  /-- None has been accepted. -/
  accepted_nil : link.accepted = []
  /-- No command was issued before an accepted answer. -/
  mark_zero : link.mark = 0
  /-- What is queued is of other modules. -/
  queue_foreign : ∀ item ∈ link.queue, item.1 = none ∧ ForeignPacket module item.2

/-- A message the board received and answered, with status zero to a CRC command. -/
def Received (codes : MessageCodes) (issued : List (List Byte)) (message : List Byte)
    (entry : ℕ × Option CanPacket) : Prop :=
  issued[entry.1]? = some message ∧ ∃ answer, entry.2 = some answer ∧
    (IsKind codes .dataCRC message → answer.pData[2]? = some 0)

section Upgrade

variable {codes : MessageCodes} {ids : ModuleIds} {module : Byte}
  {load : String → ℕ → Option HexImage} {link link' : BoardLink}

/-- In the beginning nothing is pending. -/
theorem Start.pending_eq_nil (h : Start module link) : link.pending = [] := by
  have hqueue : link.queue.filterMap Prod.fst = [] :=
    List.filterMap_eq_nil_iff.mpr fun item hitem => (h.queue_foreign item hitem).1
  rw [Link.pending, hqueue, h.answers_nil, h.commands_nil]
  rfl

/-- In the beginning the numbers mean what they should. -/
theorem Start.wellFormed (h : Start module link) :
    WellFormed (BoardReplies codes module) (ForeignPacket module) link := by
  have hpending := h.pending_eq_nil
  refine ⟨?_, ?_, ?_, ?_, ?_, ?_, ?_, ?_, ?_, ?_⟩
  · simp [hpending, h.accepted_nil]
  · simp [hpending]
  · simp [h.handled_nil, h.commands_nil]
  · simp [h.handled_nil]
  · simp [h.answers_nil]
  · intro number answer hmem
    exact absurd (h.queue_foreign _ hmem).1 (by simp)
  · simp [h.accepted_nil]
  · exact fun answer hmem => (h.queue_foreign _ hmem).2
  · simp [h.handled_nil]
  · simp [h.mark_zero]

/-- What was served in order, the board received in that order. -/
theorem exists_entries {messages : List (List Byte)}
    {fulfilled : List (Accepted (List Byte) CanPacket)}
    (h : List.Forall₂ (Serves codes link.issued) messages fulfilled) :
    List.Forall₂ (Received codes link.issued) messages
      (fulfilled.filterMap Accepted.entry) := by
  induction h with
  | nil => exact List.Forall₂.nil
  | @cons message acceptance _ _ hserves _ ih =>
    obtain ⟨number, hnumber, hmessage, hstatus⟩ := hserves
    have hentry : acceptance.entry = some (number, some acceptance.answer) := by
      rw [Accepted.entry, hnumber, Option.map_some]
    rw [List.filterMap_cons, hentry]
    exact List.Forall₂.cons ⟨hmessage, _, rfl, hstatus⟩ ih

end Upgrade

/-- If `upgrade` succeeds, the board received and answered, in this order,
START, for every element its ADDR and the DATA and CRC of each chunk, with
status zero to every CRC, and END. No answer to an earlier command was taken
for the acknowledgement of a later step. -/
theorem upgrade_agreement (codes : MessageCodes) (ids : ModuleIds) (module : Byte)
    (file : String) (load : String → ℕ → Option HexImage) (link link' : BoardLink)
    (hstart : Start module link)
    (hrun : Exec (linkEffect codes module load) link (upgrade codes ids module file) 0 link') :
    (∃ image, load file (if module = ids.rpUpgradeId ∨ module = ids.rfUpgradeId then 1 else 2) =
        some image ∧
      ∃ entries, entries.Sublist link'.handled ∧
        List.Forall₂ (Received codes link'.issued) (upgradeMessages codes image) entries) ∧
    Fresh link' := by
  have hfresh : Fresh link := by
    intro acceptance hmem
    rw [hstart.accepted_nil] at hmem
    cases hmem
  obtain ⟨loaded, afterLoad, hload, hrest⟩ := exec_bind.mp hrun
  obtain ⟨between, htraffic, hloaded, rfl⟩ := exec_ask.mp hload
  have hbegin := Advance.of_traffics hstart.wellFormed hfresh htraffic
  have hquiet : ∀ kind, Quiet (IsKind codes kind) afterLoad := fun kind =>
    (quiet_of_nil hstart.pending_eq_nil).traffics htraffic
  cases loaded with
  | none =>
    have hzero := (exec_pure.mp hrest).1
    exact absurd hzero (by decide)
  | some image =>
    obtain ⟨ret, started, hsend, hrest⟩ := exec_bind.mp hrest
    obtain ⟨rfl, hrest⟩ := exec_passed (by decide) hrest
    have hkind : IsKind codes .startFlag (startMessage codes) := rfl
    obtain ⟨hserved, hothers⟩ :=
      command_serves hkind (by decide) hbegin.wellFormed hbegin.fresh (hquiet _) hsend
    obtain ⟨⟨ret, sended⟩, sent, hfirmware, hrest⟩ := exec_bind.mp hrest
    dsimp only at hrest
    obtain ⟨rfl, hrest⟩ := exec_passed (by decide) hrest
    obtain ⟨_, shown, hprogress, helements⟩ := exec_bind.mp hfirmware
    obtain ⟨between, htraffic', rfl⟩ := exec_ask.mp hprogress
    have hshown := Advance.of_traffics hserved.wellFormed hserved.fresh htraffic'
    obtain ⟨hfirmware, hend⟩ := sendElements_serves hshown.wellFormed hshown.fresh
      ((hothers _ (by decide)).traffics htraffic') ((hothers _ (by decide)).traffics htraffic')
      helements
    obtain ⟨ret, ended, hsend, hrest⟩ := exec_bind.mp hrest
    obtain ⟨rfl, hrest⟩ := exec_passed (by decide) hrest
    obtain ⟨-, rfl⟩ := exec_pure.mp hrest
    have hkind : IsKind codes .endFlag (endMessage codes) := rfl
    obtain ⟨hlast, -⟩ :=
      command_serves hkind (by decide) hfirmware.wellFormed hfirmware.fresh hend hsend
    have hall := (((hbegin.trans hserved).trans hshown).trans hfirmware).trans hlast
    obtain ⟨news, hnews, fulfilled, hsub, hserves⟩ := hall.served
    rw [hstart.accepted_nil, List.nil_append] at hnews
    refine ⟨⟨image, hloaded.symm, fulfilled.filterMap Accepted.entry, ?_, ?_⟩, hall.fresh⟩
    · have hhandled := hall.wellFormed.accepted_handled
      rw [hnews] at hhandled
      exact (hsub.filterMap _).trans hhandled
    · have hentries := exists_entries hserves
      simpa [upgradeMessages] using hentries

/-- The answer of a board 3 that finds nothing wrong. -/
def promptAnswer (message : List Byte) : Option CanPacket :=
  [MessageKind.startFlag, .dataAddress, .firmwareData, .dataCRC, .endFlag].findSome? fun kind =>
    if message.head? = some ((default : MessageCodes).cmd kind) then
      some ⟨0, 3, 2, [(default : MessageCodes).resp kind, 3, 0]⟩
    else none

/-- The only command on the way is answered, and the answer arrives. -/
def promptBoard (link : BoardLink) : BoardLink :=
  match link.commands, link.answers with
  | [number], [] =>
    match link.issued[number]? with
    | some message =>
      match promptAnswer message with
      | some packet =>
        { link with
          commands := []
          handled := link.handled ++ [(number, some packet)]
          queue := link.queue ++ [(some number, packet)] }
      | none => link
    | none => link
  | _, _ => link

/-- Such a board answers as it may. -/
theorem promptAnswer_replies {message : List Byte} {packet : CanPacket}
    (h : promptAnswer message = some packet) : BoardReplies default 3 message packet := by
  obtain ⟨kind, -, hkind⟩ := List.exists_of_findSome?_eq_some h
  split_ifs at hkind with hhead
  obtain rfl := Option.some.inj hkind
  exact ⟨kind, hhead, rfl, rfl, fun _ => ⟨0, rfl⟩⟩

/-- Its answers travel as traffic does. -/
theorem traffics_promptBoard (link : BoardLink) :
    Traffics (BoardReplies default 3) (ForeignPacket 3) link (promptBoard link) := by
  unfold promptBoard
  split
  · rename_i number hcommands hanswers
    split
    · rename_i message hmessage
      split
      · rename_i packet hpacket
        obtain ⟨issued, commands, handled, answers, queue, accepted, mark⟩ := link
        obtain rfl : commands = [number] := hcommands
        obtain rfl : answers = [] := hanswers
        exact (Relation.ReflTransGen.single
          (Traffic.respond rfl hmessage (promptAnswer_replies hpacket))).tail (Traffic.deliver rfl)
      · exact Relation.ReflTransGen.refl
    · exact Relation.ReflTransGen.refl
  · exact Relation.ReflTransGen.refl

/-- A file with one byte of data, reads that look once, and nothing lost. -/
def promptReply : (r : UpdateRequest) → BoardLink → UpdateAnswer r × BoardLink
  | .sendCANData _ dId pdata, link =>
    ((0 : Int), if dId = 3 then link.issue pdata true else link)
  | .sockFd, link => ((3 : Int), promptBoard link)
  | .waitRounds _, link => ((0 : ℕ), link)
  | .popFromRecvList expSId expMsgType, link =>
    match link.queue with
    | [] => (none, link)
    | item :: _ =>
      (some item.2, if expected expSId expMsgType item.2 then link.accept item else link.discard)
  | .loadHex .., link => (some ⟨[⟨0x10, [0x41]⟩], 1, by decide⟩, link)
  | .downloadProgress .., link => ((), link)
  | .ensurePathMounted _, link => ((0 : Int), link)
  | .openCANDevice, link => ((0 : Int), link)
  | .closeCANDevice, link => ((), link)

/-- Such surroundings are among those the link allows. -/
theorem promptReply_allowed (r : UpdateRequest) (link : BoardLink) :
    linkEffect default 3 (fun _ _ => some ⟨[⟨0x10, [0x41]⟩], 1, by decide⟩) r link
      (promptReply r link).1 (promptReply r link).2 := by
  cases r with
  | sockFd => exact ⟨_, traffics_promptBoard link, rfl⟩
  | popFromRecvList expSId expMsgType =>
    refine ⟨link, Relation.ReflTransGen.refl, ?_⟩
    dsimp only [perform, promptReply]
    cases link.queue with
    | nil => exact ⟨rfl, rfl⟩
    | cons item rest => exact ⟨rfl, rfl⟩
  | sendCANData sId dId pdata =>
    refine ⟨link, Relation.ReflTransGen.refl, ?_⟩
    dsimp only [perform, promptReply]
    split_ifs
    · exact ⟨true, rfl⟩
    · rfl
  | loadHex => exact ⟨link, Relation.ReflTransGen.refl, rfl, rfl⟩
  | waitRounds => exact ⟨link, Relation.ReflTransGen.refl, rfl⟩
  | downloadProgress => exact ⟨link, Relation.ReflTransGen.refl, rfl⟩
  | ensurePathMounted => exact ⟨link, Relation.ReflTransGen.refl, rfl⟩
  | openCANDevice => exact ⟨link, Relation.ReflTransGen.refl, rfl⟩
  | closeCANDevice => exact ⟨link, Relation.ReflTransGen.refl, rfl⟩

/-- A link with a packet of another module in the queue. -/
def quietLink : BoardLink := ⟨[], [], [], [], [(none, ⟨0, 9, 2, [32, 3, 0]⟩)], [], 0⟩

/-- An upgrade of board 3. The packet in the queue costs the first read, so
every command is issued twice and every answer read one command late. -/
theorem upgrade_agreement_promptBoard :
    (∃ image : HexImage, some ⟨[⟨0x10, [0x41]⟩], 1, by decide⟩ = some image ∧
      ∃ entries, entries.Sublist
          ((upgrade default default 3 "/mnt/internal_sd/rp.hex").run promptReply
            quietLink).2.handled ∧
        List.Forall₂ (Received default
          ((upgrade default default 3 "/mnt/internal_sd/rp.hex").run promptReply
            quietLink).2.issued) (upgradeMessages default image) entries) ∧
    Fresh ((upgrade default default 3 "/mnt/internal_sd/rp.hex").run promptReply quietLink).2 := by
  have hrun := exec_run promptReply_allowed (upgrade default default 3 "/mnt/internal_sd/rp.hex")
    quietLink
  have hends : ((upgrade default default 3 "/mnt/internal_sd/rp.hex").run promptReply
      quietLink).1 = 0 := by rfl
  rw [hends] at hrun
  have hstart : Start 3 quietLink := by
    refine ⟨rfl, rfl, rfl, rfl, rfl, rfl, ?_⟩
    intro item hitem
    obtain rfl := List.mem_singleton.mp hitem
    exact ⟨rfl, (by decide : (9 : Byte) ≠ 3)⟩
  exact upgrade_agreement default default 3 "/mnt/internal_sd/rp.hex"
    (fun _ _ => some ⟨[⟨0x10, [0x41]⟩], 1, by decide⟩) quietLink _ hstart hrun

end RobotOta.UpgradeAgreement
