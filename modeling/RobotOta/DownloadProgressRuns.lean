import RobotOta.UpgradeOrder
import RobotOta.RecordImage

/-!
# The progress of a download

`sendFirmware` shows how much of `g_DataTotal` has been sent, in front of the
first chunk and behind every chunk, as a percentage in unsigned 32-bit
arithmetic. Whatever the link does, the amounts shown are running sums of the
lengths of the chunks; whether the percentages are sound is decided by the
size of the image alone.
-/

namespace RobotOta.DownloadProgressRuns

open CanFrameCodec HexLoader ElementCompaction DocumentedSort RecordImage RequestProgram
open BoardUpgrade UpgradeAgreement UpgradeOrder HexRecords HexAddresses

/-- The calls of `downloadProgress` that a request stands for. -/
def shown : (r : UpdateRequest) → UpdateAnswer r → List (BitVec 32 × BitVec 32)
  | .downloadProgress cur tol, _ => [(cur, tol)]
  | .sendCANData .., _ => []
  | .sockFd, _ => []
  | .waitRounds _, _ => []
  | .popFromRecvList .., _ => []
  | .loadHex .., _ => []
  | .ensurePathMounted _, _ => []
  | .openCANDevice, _ => []
  | .closeCANDevice, _ => []

/-- The calls of a run so far, whatever the answers are. -/
def Shows {α : Type} (p : UpdateM α) (calls : List (BitVec 32 × BitVec 32)) : Prop :=
  Reaches (logging shown) [] p calls

/-- `prog` of `downloadProgress`. -/
def prog (call : BitVec 32 × BitVec 32) : Int := (call.1 * 100 / call.2).toInt

/-- Every call can be computed, and the percentages grow from 0 to at most 100. -/
structure ProgressSafe (calls : List (BitVec 32 × BitVec 32)) : Prop where
  /-- Nothing is divided by zero. -/
  total_pos : ∀ call ∈ calls, 0 < call.2.toNat
  /-- No more is shown than there is. -/
  cur_le : ∀ call ∈ calls, call.1.toNat ≤ call.2.toNat
  /-- The product does not wrap. -/
  product : ∀ call ∈ calls, call.1.toNat * 100 < 2 ^ 32
  /-- The percentages are percentages. -/
  percent : ∀ call ∈ calls, 0 ≤ prog call ∧ prog call ≤ 100
  /-- They never fall. -/
  grows : calls.Pairwise fun earlier later => prog earlier ≤ prog later

/-- An image that `LoadHex` accepts, with the run of its record loop and of its
compaction. Its bytes lie in the memory of the process. -/
structure LoadedHex (addrBytes : ℕ) (content : List Char) where
  /-- What the variables of the scanner held at first. -/
  garbage : Scanned
  /-- The `sort` of the compaction. -/
  sorter : KeySort elementKey
  /-- What the record loop has left of the file. -/
  rest : List Char
  /-- The state behind the record loop. -/
  state : LoadState
  /-- The record loop accepts the content. -/
  accepted : recordLoop addrBytes (startState garbage) content = .accepted rest state
  /-- The elements behind the compaction. -/
  elements : List ImageElement
  /-- The compaction makes them of those that were loaded. -/
  compacted : compactElements sorter state.mPElements = some elements
  /-- All bytes together fit into the memory. -/
  fits : (elements.map fun e => e.data.length).sum < 2 ^ 32

/-- What `sendFirmware` gets of it. -/
def LoadedHex.image {addrBytes : ℕ} {content : List Char} (loaded : LoadedHex addrBytes content) :
    HexImage :=
  ⟨loaded.elements, loaded.state.mDataSize, loaded.fits⟩

section Size

variable {addrBytes : ℕ} {content : List Char}

/-- The walk of the compaction keeps every byte. -/
theorem byteCount_compactFrom {elements compacted : List ImageElement}
    (h : compactFrom elements = some compacted) : byteCount compacted = byteCount elements := by
  induction elements using compactFrom.induct generalizing compacted with
  | case1 => cases h
  | case2 pElement =>
    cases h
    rfl
  | case3 pElement1 pElement2 rest htouches ih =>
    rw [compactFrom, if_pos htouches] at h
    obtain ⟨tail, htail, rfl⟩ := Option.map_eq_some_iff.mp h
    have hrest := ih htail
    simp only [byteCount, List.map_cons, List.sum_cons, merged, List.length_append] at hrest ⊢
    omega
  | case4 pElement1 pElement2 rest htouches ih =>
    rw [compactFrom, if_neg htouches] at h
    obtain ⟨tail, htail, rfl⟩ := Option.map_eq_some_iff.mp h
    have hrest := ih htail
    simp only [byteCount, List.map_cons, List.sum_cons] at hrest ⊢
    omega

/-- The data size of a loaded image is the number of its bytes. -/
theorem LoadedHex.toNat_dataSize (loaded : LoadedHex addrBytes content) :
    loaded.image.dataSize.toNat = byteCount loaded.image.elements := by
  have hcompact := loaded.compacted
  rw [compactElements_eq] at hcompact
  have hbytes : byteCount loaded.elements = byteCount loaded.state.mPElements := by
    rw [byteCount_compactFrom hcompact]
    exact ((loaded.sorter.perm _).map fun e : ImageElement => e.data.length).sum_nat
  change loaded.state.mDataSize.toNat = byteCount loaded.elements
  rw [recordLoop_size loaded.accepted, ← hbytes, BitVec.toNat_ofNat]
  exact Nat.mod_eq_of_lt loaded.fits

end Size

/-- The amounts that a step shows, from the amount sent in front of it. -/
def stepShown : UpgradeStep → ℕ → List ℕ
  | .start, sended => [sended]
  | .address _, _ => []
  | .chunk buf, sended => [sended + buf.length]
  | .finish, _ => []

/-- The amount that a step sends. -/
def stepSent : UpgradeStep → ℕ
  | .start => 0
  | .address _ => 0
  | .chunk buf => buf.length
  | .finish => 0

/-- The amounts that a walk shows if no step of it fails. -/
def amounts : List UpgradeStep → ℕ → List ℕ
  | [], _ => []
  | step :: steps, sended => stepShown step sended ++ amounts steps (sended + stepSent step)

/-- The calls that show these amounts. -/
def callsOf (total : BitVec 32) (shownAmounts : List ℕ) : List (BitVec 32 × BitVec 32) :=
  shownAmounts.map fun n => (BitVec.ofNat 32 n, total)

theorem callsOf_append (total : BitVec 32) (first rest : List ℕ) :
    callsOf total (first ++ rest) = callsOf total first ++ callsOf total rest :=
  List.map_append

section Steps

variable {log : List (BitVec 32 × BitVec 32)}

/-- A request that shows nothing leaves the log as it is. -/
theorem keeps_quiet {r : UpdateRequest} (h : ∀ answer, shown r answer = []) :
    Keeps (logging shown) (· = log) (ask r) := by
  apply keeps_ask
  rintro _ answer _ rfl rfl
  rw [h, List.append_nil]

/-- Sending a command and reading its answer shows nothing. -/
theorem quiet_exchange (sId module resp : Byte) (data : List Byte) (timeout : ℕ)
    (deal : List Byte → Int) (count : ℕ) (ret : Int) :
    Keeps (logging shown) (· = log)
      (exchange sId module data resp timeout deal count ret) :=
  keeps_exchange (keeps_quiet fun _ => rfl)
    (keeps_readCANData (keeps_quiet fun _ => rfl) (fun _ => keeps_quiet fun _ => rfl)
      (keeps_quiet fun _ => rfl) 3 timeout) deal count ret

/-- Nor does a command that returns the result of its loop. -/
theorem quiet_command (sId module resp : Byte) (data : List Byte) (timeout : ℕ)
    (deal : List Byte → Int) (count : ℕ) :
    Keeps (logging shown) (· = log) (do
      let (ret, _) ← exchange sId module data resp timeout deal count (-1)
      pure ret : UpdateM Int) :=
  keeps_bind (quiet_exchange _ _ _ _ _ _ _ _) fun _ => keeps_pure _

variable {codes : MessageCodes} {ids : ModuleIds} {module : Byte} {total : BitVec 32}

/-- The rounds of a chunk show the new amount or nothing. -/
theorem leads_dataRounds {buf : List Byte} {count dataCount : ℕ} {ret : Int} {sended : ℕ} :
    Leads (logging shown) (· = log)
      (fun log' => log' = log ∨ log' = log ++ callsOf total [sended + buf.length])
      (dataRounds codes ids module buf total count dataCount ret (BitVec.ofNat 32 sended)) := by
  induction count generalizing dataCount ret with
  | zero => exact (keeps_pure _).leads fun _ h => Or.inl h
  | succ count ih =>
    refine (quiet_exchange _ _ _ _ _ _ _ _).leads_bind (fun _ h => Or.inl h) fun result =>
      leads_ite ?_ ih
    refine (quiet_command _ _ _ _ _ _ _).leads_bind (fun _ h => Or.inl h) fun ret => leads_ite ?_ ih
    refine (leads_ask (fun _ h => Or.inl h) ?_).bind_keeps fun _ => keeps_pure _
    rintro _ answer _ rfl rfl
    right
    rw [callsOf, List.map_singleton, BitVec.ofNat_add]
    rfl

/-- What a step that has been begun has shown. -/
theorem leads_run (step : UpgradeStep) (sended : ℕ) :
    Leads (logging shown) (· = log)
      (fun log' => log' = log ∨ log' = log ++ callsOf total (stepShown step sended))
      (step.run codes ids module total (BitVec.ofNat 32 sended)) := by
  cases step with
  | start =>
    refine (quiet_command _ _ _ _ _ _ _).leads_bind (fun _ h => Or.inl h) fun ret =>
      leads_ite ((keeps_pure _).leads fun _ h => Or.inl h) ?_
    refine (leads_ask (fun _ h => Or.inl h) ?_).bind_keeps fun _ => keeps_pure _
    rintro _ answer _ rfl rfl
    exact Or.inr rfl
  | address addr =>
    exact (keeps_bind (quiet_command _ _ _ _ _ _ _) fun _ => keeps_pure _).leads fun _ h => Or.inl h
  | chunk buf => exact leads_dataRounds
  | finish =>
    exact (keeps_bind (quiet_command _ _ _ _ _ _ _) fun _ => keeps_pure _).leads fun _ h => Or.inl h

/-- Rounds of a chunk that end with zero have shown the new amount. -/
theorem exec_dataRounds {buf : List Byte} {count dataCount sended : ℕ} {ret : Int}
    {after : BitVec 32} {log' : List (BitVec 32 × BitVec 32)} (hret : ret ≠ 0)
    (h : Exec (logging shown) log (dataRounds codes ids module buf total count dataCount ret
      (BitVec.ofNat 32 sended)) (0, after) log') :
    after = BitVec.ofNat 32 (sended + buf.length) ∧
      log' = log ++ callsOf total [sended + buf.length] := by
  induction count generalizing dataCount ret with
  | zero => exact absurd (congrArg Prod.fst (exec_pure.mp h).1).symm hret
  | succ count ih =>
    obtain ⟨⟨ret', left⟩, _, hdata, hrest⟩ := exec_bind.mp h
    obtain rfl := quiet_exchange _ _ _ _ _ _ _ _ _ _ rfl hdata.reaches
    dsimp only at hrest
    split_ifs at hrest with hzero
    · obtain ⟨crcRet, _, hcrc, hend⟩ := exec_bind.mp hrest
      obtain rfl := quiet_command _ _ _ _ _ _ _ _ _ rfl hcrc.reaches
      split_ifs at hend with hcrcZero
      · obtain ⟨_, _, hshow, hpure⟩ := exec_bind.mp hend
        obtain ⟨hresult, rfl⟩ := exec_pure.mp hpure
        obtain rfl := exec_ask.mp hshow
        obtain rfl := (congrArg Prod.snd hresult).symm
        rw [callsOf, List.map_singleton, BitVec.ofNat_add]
        exact ⟨rfl, rfl⟩
      · exact ih hcrcZero hend
    · exact ih hzero hrest

/-- A step that succeeds has shown its amounts. -/
theorem exec_run_zero {step : UpgradeStep} {sended : ℕ} {after : BitVec 32}
    {log' : List (BitVec 32 × BitVec 32)}
    (h : Exec (logging shown) log (step.run codes ids module total (BitVec.ofNat 32 sended))
      (0, after) log') :
    after = BitVec.ofNat 32 (sended + stepSent step) ∧
      log' = log ++ callsOf total (stepShown step sended) := by
  cases step with
  | start =>
    obtain ⟨ret, _, hcommand, hrest⟩ := exec_bind.mp h
    obtain rfl := quiet_command _ _ _ _ _ _ _ _ _ rfl hcommand.reaches
    split_ifs at hrest with hret
    · exact absurd (congrArg Prod.fst (exec_pure.mp hrest).1).symm hret
    · obtain ⟨_, _, hshow, hpure⟩ := exec_bind.mp hrest
      obtain ⟨hresult, rfl⟩ := exec_pure.mp hpure
      obtain rfl := exec_ask.mp hshow
      exact ⟨congrArg Prod.snd hresult, rfl⟩
  | address addr =>
    obtain ⟨ret, _, hcommand, hpure⟩ := exec_bind.mp h
    obtain rfl := quiet_command _ _ _ _ _ _ _ _ _ rfl hcommand.reaches
    obtain ⟨hresult, rfl⟩ := exec_pure.mp hpure
    exact ⟨congrArg Prod.snd hresult, (List.append_nil _).symm⟩
  | chunk buf => exact exec_dataRounds (by decide) h
  | finish =>
    obtain ⟨ret, _, hcommand, hpure⟩ := exec_bind.mp h
    obtain rfl := quiet_command _ _ _ _ _ _ _ _ _ rfl hcommand.reaches
    obtain ⟨hresult, rfl⟩ := exec_pure.mp hpure
    exact ⟨congrArg Prod.snd hresult, (List.append_nil _).symm⟩

/-- A walk, finished or not, has shown a first part of its amounts. -/
theorem reaches_walk {steps : List UpgradeStep} {sended : ℕ}
    {log' : List (BitVec 32 × BitVec 32)}
    (h : Reaches (logging shown) log
      (walk (UpgradeStep.run codes ids module total) steps (BitVec.ofNat 32 sended)) log') :
    ∃ shownAmounts, shownAmounts <+: amounts steps sended ∧
      log' = log ++ callsOf total shownAmounts := by
  induction steps generalizing sended log with
  | nil =>
    obtain rfl := keeps_pure _ _ _ rfl h
    exact ⟨[], List.nil_prefix, (List.append_nil _).symm⟩
  | cons step steps ih =>
    have hhere : ∀ {log'}, Reaches (logging shown) log
        (step.run codes ids module total (BitVec.ofNat 32 sended)) log' →
        ∃ shownAmounts, shownAmounts <+: amounts (step :: steps) sended ∧
          log' = log ++ callsOf total shownAmounts := by
      intro log' hin
      rcases leads_run step sended _ _ rfl hin with rfl | rfl
      · exact ⟨[], List.nil_prefix, (List.append_nil _).symm⟩
      · exact ⟨_, List.prefix_append _ _, rfl⟩
    rcases reaches_bind h with hin | ⟨⟨ret, after⟩, middle, hrun, hlater⟩
    · exact hhere hin
    · dsimp only at hlater
      split_ifs at hlater with hret
      · obtain rfl := keeps_pure _ _ _ rfl hlater
        exact hhere hrun.reaches
      · rw [ne_eq, not_not] at hret
        subst hret
        obtain ⟨rfl, rfl⟩ := exec_run_zero hrun
        obtain ⟨shownAmounts, hinitial, rfl⟩ := ih hlater
        refine ⟨stepShown step sended ++ shownAmounts,
          (List.prefix_append_right_inj _).mpr hinitial, ?_⟩
        rw [callsOf_append, List.append_assoc]

end Steps

section Amounts

/-- Every amount lies between what had been sent and what the walk sends in all. -/
theorem amounts_bounds (steps : List UpgradeStep) (sended : ℕ) :
    ∀ n ∈ amounts steps sended, sended ≤ n ∧ n ≤ sended + (steps.map stepSent).sum := by
  induction steps generalizing sended with
  | nil =>
    intro n hn
    cases hn
  | cons step steps ih =>
    intro n hn
    rw [List.map_cons, List.sum_cons]
    rcases List.mem_append.mp hn with hn | hn
    · cases step with
      | start =>
        rw [List.mem_singleton.mp hn]
        omega
      | address addr => cases hn
      | chunk buf =>
        rw [List.mem_singleton.mp hn, stepSent]
        omega
      | finish => cases hn
    · have h := ih (sended + stepSent step) n hn
      omega

/-- The amounts grow. -/
theorem amounts_grow (steps : List UpgradeStep) (sended : ℕ) :
    (amounts steps sended).Pairwise (· ≤ ·) := by
  induction steps generalizing sended with
  | nil => exact List.Pairwise.nil
  | cons step steps ih =>
    refine List.pairwise_append.mpr ⟨?_, ih _, ?_⟩
    · cases step <;> simp [stepShown]
    · intro n hn m hm
      have hlater := (amounts_bounds steps _ m hm).1
      cases step with
      | start =>
        rw [List.mem_singleton.mp hn]
        exact le_trans (Nat.le_add_right _ _) hlater
      | address addr => cases hn
      | chunk buf =>
        rw [List.mem_singleton.mp hn]
        exact hlater
      | finish => cases hn

/-- The steps of the elements send all of their bytes. -/
theorem sum_stepSent (elements : List ImageElement) :
    ((elements.flatMap elementSteps).map stepSent).sum = byteCount elements := by
  induction elements with
  | nil => rfl
  | cons element elements ih =>
    have hchunks : ((chunks element.data).map fun buf => buf.length).sum = element.data.length := by
      rw [← List.length_flatten, chunks_flatten]
    have hstep : (stepSent ∘ fun buf => UpgradeStep.chunk buf) = fun buf => buf.length := rfl
    rw [List.flatMap_cons, List.map_append, List.sum_append, ih, elementSteps, List.map_cons,
      List.sum_cons, List.map_map, hstep, hchunks, byteCount, byteCount, List.map_cons,
      List.sum_cons, stepSent, Nat.zero_add]

end Amounts

section Percent

variable {size : ℕ}

theorem percent_le (hpos : 0 < size) {n : ℕ} (hn : n ≤ size) : n * 100 / size ≤ 100 := by
  rw [Nat.div_le_iff_le_mul_add_pred hpos]
  have := Nat.mul_le_mul_right 100 hn
  omega

/-- The percentage of an amount, where the product stays in its 32 bits. -/
theorem prog_eq (hpos : 0 < size) (hproduct : size * 100 < 2 ^ 32) {n : ℕ} (hn : n ≤ size) :
    prog (BitVec.ofNat 32 n, BitVec.ofNat 32 size) = (n * 100 / size : ℕ) := by
  have hquotient := percent_le hpos hn
  have hvalue : (BitVec.ofNat 32 n * 100 / BitVec.ofNat 32 size).toNat = n * 100 / size := by
    have hhundred : (100 : BitVec 32).toNat = 100 := rfl
    rw [BitVec.toNat_udiv, BitVec.toNat_mul, BitVec.toNat_ofNat, BitVec.toNat_ofNat, hhundred,
      Nat.mod_eq_of_lt (by omega : n < 2 ^ 32), Nat.mod_eq_of_lt (by omega : size < 2 ^ 32),
      Nat.mod_eq_of_lt (by omega : n * 100 < 2 ^ 32)]
  rw [prog]
  dsimp only
  rw [BitVec.toInt_eq_toNat_of_lt (by omega), hvalue]

/-- Growing amounts up to a size whose product stays in 32 bits are shown safely. -/
theorem progressSafe_callsOf (hpos : 0 < size) (hproduct : size * 100 < 2 ^ 32)
    {shownAmounts : List ℕ} (hle : ∀ n ∈ shownAmounts, n ≤ size)
    (hgrow : shownAmounts.Pairwise (· ≤ ·)) :
    ProgressSafe (callsOf (BitVec.ofNat 32 size) shownAmounts) := by
  have hcall : ∀ call ∈ callsOf (BitVec.ofNat 32 size) shownAmounts, ∃ n, n ≤ size ∧
      call = (BitVec.ofNat 32 n, BitVec.ofNat 32 size) := by
    intro call hcall
    obtain ⟨n, hn, rfl⟩ := List.mem_map.mp hcall
    exact ⟨n, hle n hn, rfl⟩
  have hamount : ∀ n, n ≤ size → (BitVec.ofNat 32 n).toNat = n := by
    intro n hn
    rw [BitVec.toNat_ofNat]
    omega
  refine ⟨?_, ?_, ?_, ?_, ?_⟩
  · intro call h
    obtain ⟨n, hn, rfl⟩ := hcall call h
    rw [hamount size le_rfl]
    exact hpos
  · intro call h
    obtain ⟨n, hn, rfl⟩ := hcall call h
    rw [hamount size le_rfl, hamount n hn]
    exact hn
  · intro call h
    obtain ⟨n, hn, rfl⟩ := hcall call h
    rw [hamount n hn]
    omega
  · intro call h
    obtain ⟨n, hn, rfl⟩ := hcall call h
    rw [prog_eq hpos hproduct hn]
    exact ⟨Int.natCast_nonneg _, Int.ofNat_le.mpr (percent_le hpos hn)⟩
  · refine List.pairwise_map.mpr (hgrow.imp_of_mem ?_)
    intro n m hn hm hnm
    rw [prog_eq hpos hproduct (hle n hn), prog_eq hpos hproduct (hle m hm)]
    exact Int.ofNat_le.mpr (Nat.div_le_div_right (Nat.mul_le_mul_right 100 hnm))

end Percent

section Firmware

variable {codes : MessageCodes} {ids : ModuleIds} {module : Byte}

/-- The calls of a run of `sendFirmware` so far are a first part of the amounts
of its image. -/
theorem shows_sendFirmware {image : HexImage} {calls : List (BitVec 32 × BitVec 32)}
    (h : Shows (sendFirmware codes ids module image) calls) :
    ∃ shownAmounts, shownAmounts <+: 0 :: amounts (image.elements.flatMap elementSteps) 0 ∧
      calls = callsOf image.dataSize shownAmounts := by
  rcases reaches_bind h with hin | ⟨_, first, hshow, hlater⟩
  · have hfirst : Leads (logging shown) (· = []) (fun log => log = [] ∨
        log = callsOf image.dataSize [0]) (downloadProgress 0 image.dataSize) := by
      refine leads_ask (fun _ h => Or.inl h) ?_
      rintro _ answer _ rfl rfl
      exact Or.inr rfl
    rcases hfirst _ _ rfl hin with rfl | rfl
    · exact ⟨[], List.nil_prefix, rfl⟩
    · exact ⟨[0], List.prefix_append [0] _, rfl⟩
  · obtain rfl := exec_ask.mp hshow
    rw [sendElements_eq_walk] at hlater
    obtain ⟨shownAmounts, hinitial, rfl⟩ := reaches_walk hlater
    exact ⟨0 :: shownAmounts, (List.prefix_append_right_inj [0]).mpr hinitial, rfl⟩

end Firmware

section Perfect

variable {log : List (BitVec 32 × BitVec 32)}

/-- A read may find its answer, with status zero, at once. -/
theorem exec_readCANData_answered (module resp : Byte) (timeout : ℕ) :
    Exec (logging shown) log (readCANData module resp 3 timeout) (3, [resp, 3, 0]) log := by
  have hnone : log = log ++ [] := (List.append_nil log).symm
  refine exec_bind.mpr ⟨(3 : Int), log, exec_ask.mpr hnone, ?_⟩
  rw [if_neg (by decide)]
  refine exec_bind.mpr ⟨(0 : ℕ), log, exec_ask.mpr hnone, ?_⟩
  refine exec_bind.mpr ⟨some ⟨0, module, 0, [resp, 3, 0]⟩, log, exec_ask.mpr hnone, ?_⟩
  dsimp only
  rw [if_pos ⟨rfl, rfl⟩]
  exact exec_pure.mpr ⟨rfl, rfl⟩

/-- So a command may be acknowledged at its first copy. -/
theorem exec_exchange_answered (sId module resp : Byte) (data : List Byte) (timeout : ℕ)
    (deal : List Byte → Int) (count : ℕ) (ret : Int) :
    Exec (logging shown) log (exchange sId module data resp timeout deal (count + 1) ret)
      (deal [resp, 3, 0], count) log := by
  refine exec_bind.mpr ⟨(0 : Int), log, exec_ask.mpr (List.append_nil log).symm, ?_⟩
  rw [if_neg (not_not.mpr rfl)]
  refine exec_bind.mpr ⟨(3, [resp, 3, 0]), log, exec_readCANData_answered _ _ _, ?_⟩
  dsimp only
  rw [if_pos (by decide)]
  exact exec_pure.mpr ⟨rfl, rfl⟩

/-- A command whose answer is dealt with as zero may return zero. -/
theorem exec_command_answered (sId module resp : Byte) (data : List Byte) (timeout : ℕ)
    {deal : List Byte → Int} (hdeal : deal [resp, 3, 0] = 0) (count : ℕ) :
    Exec (logging shown) log (do
      let (ret, _) ← exchange sId module data resp timeout deal (count + 1) (-1)
      pure ret : UpdateM Int) 0 log :=
  exec_bind.mpr ⟨_, log, exec_exchange_answered _ _ _ _ _ _ _ _, exec_pure.mpr ⟨hdeal.symm, rfl⟩⟩

/-- And every step may succeed. -/
theorem exec_run_answered (codes : MessageCodes) (ids : ModuleIds) (module : Byte)
    (total : BitVec 32) (step : UpgradeStep) (sended : ℕ) :
    Exec (logging shown) log (step.run codes ids module total (BitVec.ofNat 32 sended))
      (0, BitVec.ofNat 32 (sended + stepSent step))
      (log ++ callsOf total (stepShown step sended)) := by
  cases step with
  | start =>
    refine exec_bind.mpr ⟨0, log, exec_command_answered _ _ _ _ _ rfl _, ?_⟩
    rw [if_neg (not_not.mpr rfl)]
    exact exec_bind.mpr ⟨(), _, exec_ask.mpr rfl, exec_pure.mpr ⟨rfl, rfl⟩⟩
  | address addr =>
    refine exec_bind.mpr ⟨0, log, exec_command_answered _ _ _ _ _ rfl _, ?_⟩
    exact exec_pure.mpr ⟨rfl, List.append_nil log⟩
  | chunk buf =>
    have hany (bytes : List Byte) : dealAny bytes = 0 := rfl
    refine exec_bind.mpr ⟨_, log, exec_exchange_answered _ _ _ _ _ _ _ _, ?_⟩
    dsimp only
    rw [if_pos (hany _)]
    refine exec_bind.mpr ⟨0, log, exec_command_answered _ _ _ _ _ rfl _, ?_⟩
    rw [if_pos rfl]
    refine exec_bind.mpr ⟨(), _, exec_ask.mpr rfl, exec_pure.mpr ⟨?_, ?_⟩⟩
    · rw [stepSent, BitVec.ofNat_add]
    · rw [stepShown, callsOf, List.map_singleton, BitVec.ofNat_add]
      rfl
  | finish =>
    refine exec_bind.mpr ⟨0, log, exec_command_answered _ _ _ _ _ rfl _, ?_⟩
    exact exec_pure.mpr ⟨rfl, List.append_nil log⟩

/-- A walk may show all of its amounts. -/
theorem exec_walk_answered (codes : MessageCodes) (ids : ModuleIds) (module : Byte)
    (total : BitVec 32) (steps : List UpgradeStep) (sended : ℕ) :
    ∃ after, Exec (logging shown) log
      (walk (UpgradeStep.run codes ids module total) steps (BitVec.ofNat 32 sended)) (0, after)
      (log ++ callsOf total (amounts steps sended)) := by
  induction steps generalizing sended log with
  | nil => exact ⟨_, exec_pure.mpr ⟨rfl, List.append_nil log⟩⟩
  | cons step steps ih =>
    obtain ⟨after, hrest⟩ := ih (sended + stepSent step)
    refine ⟨after, exec_bind.mpr ⟨_, _, exec_run_answered codes ids module total step sended, ?_⟩⟩
    dsimp only
    rw [if_neg (not_not.mpr rfl), amounts, callsOf_append, ← List.append_assoc]
    exact hrest

/-- A run of `sendFirmware` may show all amounts of its image. -/
theorem shows_sendFirmware_all (codes : MessageCodes) (ids : ModuleIds) (module : Byte)
    (image : HexImage) :
    Shows (sendFirmware codes ids module image)
      (callsOf image.dataSize (0 :: amounts (image.elements.flatMap elementSteps) 0)) := by
  have hfirst : Exec (logging shown) [] (downloadProgress 0 image.dataSize) ()
      (callsOf image.dataSize [0]) := exec_ask.mpr rfl
  obtain ⟨after, hwalk⟩ := exec_walk_answered codes ids module image.dataSize
    (image.elements.flatMap elementSteps) 0
  rw [← sendElements_eq_walk] at hwalk
  have hrun : Exec (logging shown) [] (sendFirmware codes ids module image) (0, after)
      (callsOf image.dataSize (0 :: amounts (image.elements.flatMap elementSteps) 0)) :=
    exec_bind.mpr ⟨(), _, hfirst, hwalk⟩
  exact hrun.reaches

/-- The last amount is all that the walk sends. -/
theorem total_mem_amounts (steps : List UpgradeStep) (sended : ℕ) :
    sended + (steps.map stepSent).sum ∈ sended :: amounts steps sended := by
  induction steps generalizing sended with
  | nil => exact List.mem_cons_self
  | cons step steps ih =>
    have hrest := ih (sended + stepSent step)
    rw [List.map_cons, List.sum_cons, ← Nat.add_assoc]
    rcases List.mem_cons.mp hrest with heq | hin
    · rw [heq]
      cases step with
      | start => exact List.mem_cons_self
      | address addr => exact List.mem_cons_self
      | chunk buf => exact List.mem_cons_of_mem _ List.mem_cons_self
      | finish => exact List.mem_cons_self
    · exact List.mem_cons_of_mem _ (List.mem_append_right _ hin)

end Perfect

/-- The progress of every run on an accepted image is safe if and only if the
image is not empty and a hundred times its size stays in 32 bits. -/
theorem progressSafe_iff (codes : MessageCodes) (ids : ModuleIds) (module : Byte)
    {addrBytes : ℕ} {content : List Char} (loaded : LoadedHex addrBytes content) :
    (∀ calls, Shows (sendFirmware codes ids module loaded.image) calls → ProgressSafe calls) ↔
      0 < loaded.image.dataSize.toNat ∧ loaded.image.dataSize.toNat * 100 < 2 ^ 32 := by
  have hsize := loaded.toNat_dataSize
  have htotal : BitVec.ofNat 32 loaded.image.dataSize.toNat = loaded.image.dataSize := by
    rw [BitVec.ofNat_toNat, BitVec.setWidth_eq]
  have hsum := sum_stepSent loaded.image.elements
  rw [← hsize] at hsum
  constructor
  · intro hsafe
    have hall := hsafe _ (shows_sendFirmware_all codes ids module loaded.image)
    refine ⟨hall.total_pos (BitVec.ofNat 32 0, loaded.image.dataSize) List.mem_cons_self, ?_⟩
    have hmem := total_mem_amounts (loaded.image.elements.flatMap elementSteps) 0
    rw [hsum, Nat.zero_add] at hmem
    have hlast := hall.product _ (List.mem_map_of_mem hmem)
    rwa [htotal] at hlast
  · rintro ⟨hpos, hproduct⟩ calls hshows
    obtain ⟨shownAmounts, hinitial, rfl⟩ := shows_sendFirmware hshows
    rw [← htotal]
    refine progressSafe_callsOf hpos hproduct ?_ ?_
    · intro n hn
      rcases List.mem_cons.mp (hinitial.subset hn) with rfl | hn
      · exact Nat.zero_le _
      · have hbound := (amounts_bounds _ _ n hn).2
        rwa [hsum, Nat.zero_add] at hbound
    · refine List.Pairwise.sublist hinitial.sublist ?_
      exact List.pairwise_cons.mpr ⟨fun n _ => Nat.zero_le n, amounts_grow _ 0⟩

/-- A data record without data, then the end record. -/
def emptyRecords : List HexRecord := [⟨0, 0, 0, [], 0⟩, ⟨0, 0, 1, [], 0xFF⟩]

/-- `LoadHex` accepts a file whose only data record is empty, and the first
call of `downloadProgress` divides by zero. -/
theorem not_progressSafe_empty :
    ∃ loaded : LoadedHex 2 (formatLines emptyRecords),
      ¬∀ calls, Shows (sendFirmware default default 5 loaded.image) calls → ProgressSafe calls := by
  have hlines := recordLoop_wellFormed
    (wellFormed_formatLines (by decide : ∀ r ∈ emptyRecords, _) (by decide)) 2 ⟨0, 0, 0, 0, 0⟩
  rw [if_neg (by decide)] at hlines
  obtain ⟨rest, state, haccept, -, hstored⟩ := hlines
  have hcompact : compactElements (insertionKeySort elementKey) state.mPElements =
      some [⟨0, []⟩] := by
    rw [compactElements_eq, hstored]
    rfl
  let loaded : LoadedHex 2 (formatLines emptyRecords) :=
    ⟨⟨0, 0, 0, 0, 0⟩, insertionKeySort elementKey, rest, state, haccept, [⟨0, []⟩], hcompact,
      by decide⟩
  refine ⟨loaded, fun hsafe => ?_⟩
  have hzero : loaded.image.dataSize.toNat = 0 := loaded.toNat_dataSize
  have hpos := (hsafe _ (shows_sendFirmware_all default default 5 loaded.image)).total_pos
    (BitVec.ofNat 32 0, loaded.image.dataSize) List.mem_cons_self
  exact absurd hzero (Nat.ne_of_gt hpos)

end RobotOta.DownloadProgressRuns
