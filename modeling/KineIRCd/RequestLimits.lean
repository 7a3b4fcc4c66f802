import KineIRCd.WorldSteps
/-!
# The limits on targets and languages

PRIVMSG, NOTICE and SQUERY count the targets of a request, and LANGUAGE counts
its languages. The first three share a loop, which is followed here over any
state: run on a log it says which targets were processed, and the world the
command leaves is that log played back.
-/
namespace KineIRCd.Irc2User

open LibIRC2 LibIRC2.Numerics

/-! ## The loop over targets -/

section TargetLoop
variable {σ τ : Type}

/-- `forTargets` over any state, and for users who may be operators. -/
def targetLoop (isOperator : Bool) (each : Octets → σ → σ) (tooMany : σ → σ) (targets : UInt32)
    (recipients : StringTokens)
    (s : σ) : σ :=
  if _h : recipients.hasMoreTokens = true then
    let target := (recipients.nextToken COMMA).1
    let targets := targets - 1
    if targets > 0 ∨ isOperator then
      targetLoop isOperator each tooMany targets (recipients.nextToken COMMA).2 (each target s)
    else tooMany s
  else s
termination_by recipients.unread.length
decreasing_by exact StringTokens.nextToken_length recipients COMMA _h

variable {each : Octets → σ → σ} {tooMany : σ → σ} {each' : Octets → τ → τ} {tooMany' : τ → τ}

/-- An operator gets through every target, wherever the counter is. -/
theorem targetLoop_operator (targets : UInt32) (recipients : StringTokens) (s : σ) :
    targetLoop true each tooMany targets recipients s = (recipients.tokens COMMA).foldl (fun s t => each t s) s := by
  fun_induction targetLoop true each tooMany targets recipients s with
  | case1 targets recipients s hmore target targets' _ ih => rw [ih, StringTokens.tokens_of_more hmore, List.foldl_cons]
  | case2 targets recipients s _ targets' hstop => exact absurd (.inr rfl) hstop
  | case3 targets recipients s hdone => rw [StringTokens.tokens_of_done hdone, List.foldl_nil]

/-- Anyone else is stopped at the target that takes the counter to zero. -/
theorem targetLoop_user {targets : UInt32} (recipients : StringTokens) (s : σ) (htargets : targets ≠ 0) :
    targetLoop false each tooMany targets recipients s =
      if (recipients.tokens COMMA).length < targets.toNat then (recipients.tokens COMMA).foldl (fun s t => each t s) s
      else tooMany (((recipients.tokens COMMA).take (targets.toNat - 1)).foldl (fun s t => each t s) s) := by
  have hsub : ∀ {n : UInt32}, n ≠ 0 → (n - 1).toNat = n.toNat - 1 := by
    intro n hn
    have hpos : n.toNat ≠ 0 := fun h => hn (UInt32.toNat_inj.1 h)
    exact UInt32.toNat_sub_of_le n 1 (UInt32.le_iff_toNat_le.2 (show 1 ≤ n.toNat by omega))
  fun_induction targetLoop false each tooMany targets recipients s with
  | case1 targets recipients s hmore target targets' hgo ih =>
    have hpositive : targets - 1 > 0 := hgo.resolve_right (by simp)
    have htwo : 1 < targets.toNat := by
      have hlt := UInt32.lt_iff_toNat_lt.1 hpositive
      rw [hsub htargets] at hlt
      have : 0 < targets.toNat - 1 := hlt
      omega
    rw [ih (fun h => by simp [targets', h] at hpositive), hsub htargets, StringTokens.tokens_of_more hmore,
      List.length_cons,
      List.foldl_cons]
    obtain ⟨n, hn⟩ : ∃ n, targets.toNat = n + 2 := ⟨targets.toNat - 2, by omega⟩
    simp only [hn, Nat.add_sub_cancel, show n + 2 - 1 = n + 1 from rfl, List.take_succ_cons, List.foldl_cons,
      Nat.add_lt_add_iff_right]
    rfl
  | case2 targets recipients s hmore targets' hstop =>
    have hone : targets.toNat = 1 := by
      have hle : ¬ targets - 1 > 0 := fun h => hstop (.inl h)
      have hpos : targets.toNat ≠ 0 := fun h => htargets (UInt32.toNat_inj.1 h)
      have hnot := mt UInt32.lt_iff_toNat_lt.2 hle
      rw [hsub htargets] at hnot
      have : ¬ 0 < targets.toNat - 1 := hnot
      omega
    rw [StringTokens.tokens_of_more hmore, hone, if_neg (by simp)]
    rfl
  | case3 targets recipients s hdone =>
    have hpos : targets.toNat ≠ 0 := fun h => htargets (UInt32.toNat_inj.1 h)
    rw [StringTokens.tokens_of_done hdone, if_pos (by simpa using Nat.pos_of_ne_zero hpos), List.foldl_nil]

/-- Two runs of the loop whose steps stay related end in states that are. -/
theorem targetLoop_simulates {R R' : σ → τ → Prop} (heach : ∀ t s s', R s s' → R (each t s) (each' t s'))
    (htooMany : ∀ s s', R s s' → R' (tooMany s) (tooMany' s')) (hdone : ∀ s s', R s s' → R' s s') (isOperator : Bool)
    (targets : UInt32) (recipients : StringTokens) (s : σ) (s' : τ) (h : R s s') :
    R' (targetLoop isOperator each tooMany targets recipients s)
      (targetLoop isOperator each' tooMany' targets recipients s') := by
  fun_induction targetLoop isOperator each tooMany targets recipients s generalizing s' with
  | case1 targets recipients s hmore target targets' hgo ih =>
    have hloop : targetLoop isOperator each' tooMany' targets recipients s' =
        targetLoop isOperator each' tooMany' targets' (recipients.nextToken COMMA).2 (each' target s') := by
      rw [targetLoop, dif_pos hmore]
      exact if_pos hgo
    rw [hloop]
    exact ih _ (heach target s s' h)
  | case2 targets recipients s hmore targets' hstop =>
    have hloop : targetLoop isOperator each' tooMany' targets recipients s' = tooMany' s' := by
      rw [targetLoop, dif_pos hmore]
      exact if_neg hstop
    rw [hloop]
    exact htooMany s s' h
  | case3 targets recipients s hempty =>
    rw [targetLoop, dif_neg hempty]
    exact hdone s s' h

end TargetLoop

/-! ## The commands -/

/-- What a request did with its targets. -/
structure TargetLog where
  processed : List Octets := []
  /-- The number of ERR_TOOMANYTARGETS sent. -/
  complaints : Nat := 0
  deriving DecidableEq

def TargetLog.each (target : Octets) (log : TargetLog) : TargetLog :=
  { log with processed := log.processed ++ [target] }

def TargetLog.complain (log : TargetLog) : TargetLog := { log with complaints := log.complaints + 1 }

/-- The commands that take a list of targets. -/
inductive TargetCommand where
  | privmsg
  | notice
  | squery
  deriving DecidableEq

variable (site : Site) (self : Self)

namespace TargetCommand

/-- The handler in the table. -/
def handler : TargetCommand → Handler
  | privmsg => .privmsg
  | notice => .notice
  | squery => .squery

def run (command : TargetCommand) (parameters : List Octets) (w : World) : World :=
  match command with
  | privmsg => doMessage site self parameters false w
  | notice => doMessage site self parameters true w
  | squery => handleSQUERY site self parameters w

/-- What the command does with one target. -/
def target (command : TargetCommand) (text : Octets) (target : Octets) (w : World) : World :=
  match command with
  | privmsg => messageTarget site self false target (site.localiseStr text) w
  | notice => messageTarget site self true target (site.localiseStr text) w
  | squery => queryTarget site self target w

/-- NOTICE does not complain. -/
def complains (command : TargetCommand) : Bool := command ≠ notice

/-- The loop of the command, on a log. -/
def log (command : TargetCommand) (isOperator : Bool) (parameters : List Octets) : TargetLog :=
  if parameters.length ≥ 2 then
    targetLoop isOperator TargetLog.each (fun log => if command.complains then log.complain else log)
      site.maxTargets.toUInt32 ⟨parameters.getD 0 []⟩ {}
  else {}

/-- A log played back on the world. -/
def replay (command : TargetCommand) (text : Octets) (log : TargetLog) (w : World) : World :=
  (tooManyTargets site self)^[log.complaints] (log.processed.foldl (fun w t => command.target site self text t w) w)

end TargetCommand

theorem forTargets_eq (each : Octets → World → World) (tooMany : World → World) (targets : UInt32)
    (recipients : StringTokens) (w : World) :
    forTargets self each tooMany targets recipients w =
      targetLoop self.user.isOperator each tooMany targets recipients w := by
  fun_induction forTargets self each tooMany targets recipients w with
  | case1 targets recipients w hmore target targets' hgo ih =>
    rw [ih]
    conv_rhs => rw [targetLoop, dif_pos hmore]
    exact (if_pos hgo).symm
  | case2 targets recipients w hmore targets' hstop =>
    rw [targetLoop, dif_pos hmore]
    exact (if_neg hstop).symm
  | case3 targets recipients w hdone => rw [targetLoop, dif_neg hdone]

/-- The world a command leaves is its log, played back. -/
theorem run_eq_replay (command : TargetCommand) (recipients text : Octets) (rest : List Octets) (w : World) :
    command.run site self (recipients :: text :: rest) w =
      command.replay site self text (command.log site self.user.isOperator (recipients :: text :: rest)) w := by
  have hloop : ∀ (each : Octets → World → World) (tooMany : World → World),
      each = command.target site self text →
      (∀ w, tooMany w = if command.complains = true then tooManyTargets site self w else w) →
      forTargets self each tooMany site.maxTargets.toUInt32 ⟨recipients⟩ w =
        command.replay site self text (command.log site self.user.isOperator (recipients :: text :: rest)) w := by
    rintro each tooMany rfl htooMany
    rw [forTargets_eq, TargetCommand.log, if_pos (by simp)]
    have hstart : ({} : TargetLog).complaints = 0 ∧
        w = ({} : TargetLog).processed.foldl (fun w t => command.target site self text t w) w := ⟨rfl, rfl⟩
    refine @targetLoop_simulates World TargetLog _ _ _ _
      (fun w' log => log.complaints = 0 ∧ w' = log.processed.foldl (fun w t => command.target site self text t w) w)
      (fun w' log => w' = command.replay site self text log w) ?_ ?_ ?_ _ _ _ w {} hstart
    · rintro t w' log ⟨hnone, rfl⟩
      exact ⟨hnone, by simp [TargetLog.each]⟩
    · rintro w' log ⟨hnone, rfl⟩
      rw [htooMany]
      split_ifs
      · simp [TargetCommand.replay, TargetLog.complain, hnone]
      · simp [TargetCommand.replay, hnone]
    · rintro w' log ⟨hnone, rfl⟩
      simp [TargetCommand.replay, hnone]
  cases command with
  | privmsg => exact hloop _ _ rfl fun w => rfl
  | notice => exact hloop _ _ rfl fun w => rfl
  | squery => exact hloop _ _ rfl fun w => rfl

theorem foldl_each (targets : List Octets) (log : TargetLog) :
    targets.foldl (fun log t => TargetLog.each t log) log = { log with processed := log.processed ++ targets } := by
  induction targets generalizing log with
  | nil => simp
  | cons t targets ih =>
    rw [List.foldl_cons, ih]
    simp [TargetLog.each]

/-- What a request does, for every list of targets. -/
theorem log_eq (command : TargetCommand) (isOperator : Bool) (recipients text : Octets) (rest : List Octets)
    (hlimit : site.maxTargets ≠ 0) :
    command.log site isOperator (recipients :: text :: rest) =
      let targets := (⟨recipients⟩ : StringTokens).tokens COMMA
      if isOperator ∨ targets.length < site.maxTargets.toNat then ⟨targets, 0⟩
      else ⟨targets.take (site.maxTargets.toNat - 1), if command.complains then 1 else 0⟩ := by
  have hne : site.maxTargets.toUInt32 ≠ 0 :=
    fun h => hlimit (UInt8.toNat_inj.1 (by simpa using congrArg UInt32.toNat h))
  rw [TargetCommand.log, if_pos (by simp)]
  cases isOperator with
  | true =>
    rw [targetLoop_operator, foldl_each]
    rfl
  | false =>
    rw [targetLoop_user _ _ hne, foldl_each, foldl_each, UInt8.toNat_toUInt32]
    cases command.complains <;> simp [TargetLog.complain]

/-- What a limit asks of a request with some targets. -/
def RespectsLimit (limit : Nat) (isOperator complains : Bool) (targets : List Octets) (log : TargetLog) : Prop :=
  if isOperator then log.processed = targets ∧ log.complaints = 0
  else log.processed = targets.take limit ∧ log.complaints = if complains ∧ limit < targets.length then 1 else 0

/-- The limit is respected while a user names fewer targets than it allows. -/
theorem respectsLimit_iff (site : Site) (command : TargetCommand) (isOperator : Bool) (recipients text : Octets)
    (rest : List Octets) (hlimit : site.maxTargets ≠ 0) :
    RespectsLimit site.maxTargets.toNat isOperator command.complains ((⟨recipients⟩ : StringTokens).tokens COMMA)
        (command.log site isOperator (recipients :: text :: rest)) ↔
      isOperator = true ∨ ((⟨recipients⟩ : StringTokens).tokens COMMA).length < site.maxTargets.toNat := by
  rw [log_eq site command isOperator recipients text rest hlimit]
  generalize (⟨recipients⟩ : StringTokens).tokens COMMA = targets
  have hpos : site.maxTargets.toNat ≠ 0 := fun h => hlimit (UInt8.toNat_inj.1 h)
  cases isOperator with
  | true => simp [RespectsLimit]
  | false =>
    by_cases hfew : targets.length < site.maxTargets.toNat
    · refine iff_of_true ?_ (.inr hfew)
      simp only [RespectsLimit, hfew, or_true, if_true, Bool.false_eq_true, if_false]
      exact ⟨(List.take_of_length_le hfew.le).symm, by rw [if_neg (fun h => absurd h.2 (by omega))]⟩
    · refine iff_of_false ?_ (by simpa using hfew)
      simp only [RespectsLimit, hfew, Bool.false_eq_true, or_self, if_false]
      rintro ⟨hprocessed, -⟩
      have := congrArg List.length hprocessed
      rw [List.length_take, List.length_take] at this
      omega

/-- A site with a limit of one target. -/
def oneTarget : Site :=
  { Env.sample with maxTargets := 1, listeners := [], report := fun _ _ _ _ => [], serviceName := fun _ => [] }

theorem respectsLimit_oneTarget : oneTarget.maxTargets ≠ 0 ∧
    (RespectsLimit oneTarget.maxTargets.toNat true TargetCommand.privmsg.complains
        ((⟨octets "a,b"⟩ : StringTokens).tokens COMMA)
        (TargetCommand.privmsg.log oneTarget true [octets "a,b", octets "hi"]) ↔
      true = true ∨ ((⟨octets "a,b"⟩ : StringTokens).tokens COMMA).length < oneTarget.maxTargets.toNat) :=
  ⟨by decide, respectsLimit_iff oneTarget .privmsg true (octets "a,b") (octets "hi") [] (by decide)⟩

/-- With a limit of one, the only target is one too many. -/
theorem not_respectsLimit_oneTarget : ¬ RespectsLimit oneTarget.maxTargets.toNat false TargetCommand.privmsg.complains
    ((⟨octets "a"⟩ : StringTokens).tokens COMMA)
    (TargetCommand.privmsg.log oneTarget false [octets "a", octets "hi"]) := by
  have htokens : (⟨octets "a"⟩ : StringTokens).tokens COMMA = [octets "a"] :=
    StringTokens.tokens_single (by decide) (List.cons_ne_nil _ _)
  rw [log_eq oneTarget .privmsg false (octets "a") (octets "hi") [] (by decide), htokens]
  rintro ⟨hprocessed, -⟩
  revert hprocessed
  decide

/-! ## Languages -/

/-- Does LANGUAGE take the code? -/
def acceptsCode (code : Octets) : Bool := site.findByCode code ≠ none ∨ toLower code = octets "none"

/-- The languages a list of codes names, less the codes LANGUAGE does not take. -/
def acceptedLanguages (langCodes : StringTokens) : LanguageList :=
  ((langCodes.tokens COMMA).filter (acceptsCode site)).map site.findByCode

/-- The list that `handleLANGUAGE` gives to `setLanguageList`, if it calls it. -/
def newLanguageList (codes : Octets) (w : World) : Option LanguageList :=
  (languageCodes site self ⟨codes⟩ 0 [] w).1.filter (fun list => !list.isEmpty)

/-- The languages of the user whose protocol is at `a`. -/
def languagesOf (a : Nat) (w : World) : Option LanguageList := ((w.protocol a).bind (·.user?)).map (·.languageList)

def tooManyLanguages (w : World) : World :=
  sendNumeric site self ERR_TOOMANYLANGUAGES
    [decimal site.maxLanguages.toNat, getLang site self .irc2_ERR_TOOMANYLANGUAGES] w

/-- What the limit asks of a LANGUAGE request. -/
structure KeepsLanguageLimit (user : Self) (codes : Octets) (rest : List Octets) (w : World) : Prop where
  installed : ∀ list ∈ newLanguageList site user codes w, list.length ≤ site.maxLanguages.toNat
  tooMany : site.maxLanguages.toNat < (acceptedLanguages site ⟨codes⟩).length →
    languagesOf user.this (handleLANGUAGE site user (codes :: rest) w) = languagesOf user.this w ∧
      ∃ w', handleLANGUAGE site user (codes :: rest) w = tooManyLanguages site user w'
  accepted : acceptedLanguages site ⟨codes⟩ ≠ [] → (acceptedLanguages site ⟨codes⟩).length ≤ site.maxLanguages.toNat →
    languagesOf user.this (handleLANGUAGE site user (codes :: rest) w) =
      (languagesOf user.this w).map fun _ => acceptedLanguages site ⟨codes⟩

variable {site self}

theorem languagesOf_outputLine (a b : Nat) (line : Octets) (w : World) :
    languagesOf a (w.outputLine b line) = languagesOf a w := by
  rw [languagesOf, World.outputLine, World.protocol_modifyProtocol]
  split_ifs with h
  · rw [h, languagesOf]
    rcases w.protocol b with _ | ⟨c, r | u⟩ <;> rfl
  · rfl

theorem languagesOf_sendNumeric (a numeric : Nat) (parameters : List Octets) (w : World) :
    languagesOf a (sendNumeric site self numeric parameters w) = languagesOf a w := languagesOf_outputLine _ _ _ w

theorem languagesOf_report (a : Nat) (command : Octets) (parameters : List Octets) (w : World) :
    languagesOf a (report site self command parameters w) = languagesOf a w := by
  unfold report outputLines
  induction site.report w self.this command parameters generalizing w with
  | nil => rfl
  | cons line lines ih => exact (ih _).trans (languagesOf_outputLine _ _ line w)

theorem languagesOf_modifyUser (f : User → User) (w : World) :
    languagesOf self.this (modifyUser self f w) =
      ((w.protocol self.this).bind (·.user?)).map fun u => (f u).languageList := by
  rw [languagesOf, modifyUser, World.protocol_modifyProtocol, if_pos rfl]
  rcases w.protocol self.this with _ | ⟨c, r | u⟩ <;> rfl

theorem languagesOf_setLanguageList (list : LanguageList) (w : World) :
    languagesOf self.this (modifyUser self (fun u => { u with languageList := list }) w) =
      (languagesOf self.this w).map fun _ => list := by
  rw [languagesOf_modifyUser, languagesOf, Option.map_map]
  rfl

/-- The loop over the codes changes no languages. -/
theorem languagesOf_languageCodes (a : Nat) (langCodes : StringTokens) (count : UInt8) (list : LanguageList)
    (w : World) : languagesOf a (languageCodes site self langCodes count list w).2 = languagesOf a w := by
  fun_induction languageCodes site self langCodes count list w with
  | case1 langCodes count list w _ code rest data _ ih => exact ih.trans (languagesOf_sendNumeric _ _ _ w)
  | case2 langCodes count list w _ code data _ _ => exact languagesOf_sendNumeric _ _ _ w
  | case3 langCodes count list w _ code rest data _ _ ih => exact ih
  | case4 langCodes count list w _ => rfl

/-- The loop stops early only to complain. -/
theorem languageCodes_none {langCodes : StringTokens} {count : UInt8} {list : LanguageList} {w : World}
    (h : (languageCodes site self langCodes count list w).1 = none) :
    ∃ w', (languageCodes site self langCodes count list w).2 = tooManyLanguages site self w' := by
  fun_induction languageCodes site self langCodes count list w with
  | case1 langCodes count list w _ code rest data _ ih => exact ih h
  | case2 langCodes count list w _ code data _ _ => exact ⟨w, rfl⟩
  | case3 langCodes count list w _ code rest data _ _ ih => exact ih h
  | case4 langCodes count list w _ => cases h

theorem acceptsCode_iff (code : Octets) : acceptsCode site code = true ↔ ¬ (site.findByCode code = none ∧
    code.map (fun c => if 65 ≤ c ∧ c ≤ 90 then c + 32 else c) ≠ octets "none") := by
  rw [acceptsCode, decide_eq_true_iff, not_and_or, not_not]
  rfl

theorem acceptedLanguages_refused {langCodes : StringTokens} (hmore : langCodes.hasMoreTokens = true)
    (hrefused : ¬ acceptsCode site (langCodes.nextToken COMMA).1 = true) :
    acceptedLanguages site langCodes = acceptedLanguages site (langCodes.nextToken COMMA).2 := by
  rw [acceptedLanguages, StringTokens.tokens_of_more hmore, List.filter_cons_of_neg hrefused, acceptedLanguages]

theorem acceptedLanguages_accepted {langCodes : StringTokens} (hmore : langCodes.hasMoreTokens = true)
    (haccepted : acceptsCode site (langCodes.nextToken COMMA).1 = true) : acceptedLanguages site langCodes =
      site.findByCode (langCodes.nextToken COMMA).1 :: acceptedLanguages site (langCodes.nextToken COMMA).2 := by
  rw [acceptedLanguages, StringTokens.tokens_of_more hmore, List.filter_cons_of_pos haccepted, List.map_cons,
    acceptedLanguages]

theorem acceptedLanguages_done {langCodes : StringTokens} (hdone : ¬ langCodes.hasMoreTokens = true) :
    acceptedLanguages site langCodes = [] := by
  rw [acceptedLanguages, StringTokens.tokens_of_done hdone]
  rfl

/-- With the largest limit the counter wraps around before it gets past it. -/
theorem languageCodes_unlimited (hmax : site.maxLanguages = 255) (langCodes : StringTokens) (count : UInt8)
    (list : LanguageList) (w : World) :
    (languageCodes site self langCodes count list w).1 = some (list ++ acceptedLanguages site langCodes) := by
  fun_induction languageCodes site self langCodes count list w with
  | case1 langCodes count list w hmore code rest data hrefused ih =>
    rw [ih, acceptedLanguages_refused hmore fun haccepted => (acceptsCode_iff _).1 haccepted hrefused]
  | case2 langCodes count list w hmore code data haccepted hover =>
    rw [hmax] at hover
    exact absurd (UInt8.lt_iff_toNat_lt.1 hover) (Nat.not_lt.2 (Nat.le_of_lt_succ (count + 1).toNat_lt))
  | case3 langCodes count list w hmore code rest data haccepted hwithin ih =>
    rw [ih, acceptedLanguages_accepted hmore ((acceptsCode_iff _).2 haccepted), List.append_assoc,
      List.singleton_append]
  | case4 langCodes count list w hdone => rw [acceptedLanguages_done hdone, List.append_nil]

/-- With any other limit the counter stops right past it. -/
theorem languageCodes_limited (hmax : site.maxLanguages ≠ 255) {langCodes : StringTokens} {count : UInt8}
    {list : LanguageList} {w : World} (hcount : count ≤ site.maxLanguages) :
    (languageCodes site self langCodes count list w).1 =
      if count.toNat + (acceptedLanguages site langCodes).length ≤ site.maxLanguages.toNat then
        some (list ++ acceptedLanguages site langCodes)
      else none := by
  have hsucc : ∀ c : UInt8, c ≤ site.maxLanguages → (c + 1).toNat = c.toNat + 1 := by
    intro c hc
    have hlt : site.maxLanguages.toNat < 255 :=
      Nat.lt_of_le_of_ne (Nat.le_of_lt_succ site.maxLanguages.toNat_lt) fun h => hmax (UInt8.toNat_inj.1 h)
    have := UInt8.le_iff_toNat_le.1 hc
    rw [UInt8.toNat_add]
    exact Nat.mod_eq_of_lt (show c.toNat + 1 < 256 by omega)
  fun_induction languageCodes site self langCodes count list w with
  | case1 langCodes count list w hmore code rest data hrefused ih =>
    rw [ih hcount, acceptedLanguages_refused hmore fun haccepted => (acceptsCode_iff _).1 haccepted hrefused]
  | case2 langCodes count list w hmore code data haccepted hover =>
    have := UInt8.lt_iff_toNat_lt.1 hover
    rw [hsucc count hcount] at this
    rw [acceptedLanguages_accepted hmore ((acceptsCode_iff _).2 haccepted), List.length_cons, if_neg (by omega)]
  | case3 langCodes count list w hmore code rest data haccepted hwithin ih =>
    have hle : count + 1 ≤ site.maxLanguages := UInt8.not_lt.1 hwithin
    rw [ih hle, hsucc count hcount, acceptedLanguages_accepted hmore ((acceptsCode_iff _).2 haccepted),
      List.append_assoc, List.singleton_append, List.length_cons, Nat.add_assoc, Nat.add_comm 1]
  | case4 langCodes count list w hdone =>
    rw [acceptedLanguages_done hdone, List.append_nil, if_pos (by simpa using UInt8.le_iff_toNat_le.1 hcount)]

/-- The handler in terms of the list it installs. -/
theorem handleLANGUAGE_eq (codes : Octets) (rest : List Octets) (w : World) :
    handleLANGUAGE site self (codes :: rest) w =
      match newLanguageList site self codes w with
      | some list => report site self (octets "LANGUAGE") (codes :: rest)
          (modifyUser self (fun u => { u with languageList := list }) (languageCodes site self ⟨codes⟩ 0 [] w).2)
      | none => (languageCodes site self ⟨codes⟩ 0 [] w).2 := by
  rw [handleLANGUAGE, if_neg (List.cons_ne_nil _ _), List.getD_cons_zero, newLanguageList]
  obtain ⟨_ | _ | ⟨l, ls⟩, w'⟩ := languageCodes site self ⟨codes⟩ 0 [] w <;> rfl

theorem newLanguageList_of_some {codes : Octets} {w : World} {list : LanguageList} (hne : list ≠ [])
    (h : (languageCodes site self ⟨codes⟩ 0 [] w).1 = some list) : newLanguageList site self codes w = some list := by
  rw [newLanguageList, h, Option.filter_some_pos]
  simpa using hne

/-- The limit is kept unless it is the largest and more languages than that are named. -/
theorem keepsLanguageLimit_iff (site : Site) (self : Self) (codes : Octets) (rest : List Octets) (w : World) :
    KeepsLanguageLimit site self codes rest w ↔
      ¬ (site.maxLanguages = 255 ∧ 255 < (acceptedLanguages site ⟨codes⟩).length) := by
  constructor
  · rintro h ⟨hmax, hmany⟩
    have hlist := @languageCodes_unlimited site self hmax ⟨codes⟩ 0 [] w
    have hne : acceptedLanguages site ⟨codes⟩ ≠ [] := fun hnil => by simp [hnil] at hmany
    have hbound := h.installed _ (newLanguageList_of_some hne hlist)
    rw [hmax] at hbound
    exact absurd hmany (Nat.not_lt.2 hbound)
  · intro hnot
    have hlist : (languageCodes site self ⟨codes⟩ 0 [] w).1 =
        if (acceptedLanguages site ⟨codes⟩).length ≤ site.maxLanguages.toNat then some (acceptedLanguages site ⟨codes⟩)
        else none := by
      by_cases hmax : site.maxLanguages = 255
      · rw [languageCodes_unlimited hmax, if_pos (by rw [hmax]; exact Nat.not_lt.1 fun h => hnot ⟨hmax, h⟩)]
        rfl
      · rw [languageCodes_limited hmax (UInt8.le_iff_toNat_le.2 (Nat.zero_le _)), UInt8.toNat_zero, Nat.zero_add,
          List.nil_append]
    have hlanguages := @languagesOf_languageCodes site self self.this ⟨codes⟩ 0 [] w
    constructor
    · intro list hmem
      obtain ⟨hsome, -⟩ := Option.mem_filter_iff.1 hmem
      rw [hlist] at hsome
      split_ifs at hsome with hfew
      · obtain rfl := Option.some_inj.1 hsome
        exact hfew
      · cases hsome
    · intro hmany
      have hnone : (languageCodes site self ⟨codes⟩ 0 [] w).1 = none := by rw [hlist, if_neg (by omega)]
      obtain ⟨w', hw'⟩ := languageCodes_none hnone
      rw [handleLANGUAGE_eq, newLanguageList, hnone]
      exact ⟨hlanguages, w', hw'⟩
    · intro hne hfew
      rw [handleLANGUAGE_eq, newLanguageList_of_some hne (by rw [hlist, if_pos hfew])]
      dsimp only
      rw [languagesOf_report, languagesOf_setLanguageList, hlanguages]

/-- A site with the largest limit. -/
def manyLanguages : Site :=
  { Env.sample with maxLanguages := 255, listeners := [], report := fun _ _ _ _ => [], serviceName := fun _ => [] }

def sampleUser : User := ⟨wide "pickle", wide "simon", wide "host", [], [], 0, 0, [some (octets "en")]⟩

/-- The code `en`, 256 times. -/
theorem not_keepsLanguageLimit : ¬ KeepsLanguageLimit manyLanguages ⟨0, 0, sampleUser⟩
    ([COMMA].intercalate (List.replicate 256 (octets "en"))) [] {} := by
  intro h
  have htokens := @StringTokens.tokens_intercalate COMMA (List.replicate 256 (octets "en"))
    (fun piece hpiece => by rw [List.eq_of_mem_replicate hpiece]; decide)
    (by rw [List.getLast?_replicate]; decide)
  have haccepted : acceptedLanguages manyLanguages ⟨[COMMA].intercalate (List.replicate 256 (octets "en"))⟩ =
      List.replicate 256 (some (octets "en")) := by
    rw [acceptedLanguages, htokens, List.filter_replicate_of_pos (by decide), List.map_replicate]
    rfl
  have hlist := @languageCodes_unlimited manyLanguages ⟨0, 0, sampleUser⟩ rfl
    ⟨[COMMA].intercalate (List.replicate 256 (octets "en"))⟩ 0 [] {}
  rw [haccepted, List.nil_append] at hlist
  have hne : List.replicate 256 (some (octets "en")) ≠ [] := by
    rw [Ne, List.replicate_eq_nil_iff]
    decide
  have hbound := h.installed _ (newLanguageList_of_some hne hlist)
  rw [List.length_replicate] at hbound
  exact absurd hbound (by decide)

end KineIRCd.Irc2User
