import SpectraGQL.Admin.Update

/-! # Updates that are cut off

The loop over the body of an update stops at the chunk that passes two mebibytes, and what has
come until then is taken for the whole of it.  A start of a TOML text is often one itself, so
an update may be accepted of which the client has sent more.  `persists_what_was_sent_iff` says
that these are the only updates that do not persist what was sent.
-/

namespace SpectraGQL.Admin

open Interaction SpectraGQL.Http SpectraGQL.Gateway

variable {γ : Type}

/-! ## Reading the body -/

/-- What has come is followed by nothing once it has passed the limit. -/
def ReadInFull (request : AdminRequest) : Prop :=
  ∀ seen rest, request.chunks = seen ++ rest → maxConfigBytes < seen.flatten.length →
    rest = [] ∧ request.readError = none

/-- The loop reads the whole body, or stops once it has passed the limit. -/
theorem readConfigBody_eq_ok {readError : Option PingoraError} {buffer body : Bytes}
    {chunks : List Bytes} (read : readConfigBody readError buffer chunks = .ok body) :
    ∃ seen rest, chunks = seen ++ rest ∧ body = buffer ++ seen.flatten ∧
      (rest = [] ∧ readError = none ∨ maxConfigBytes < body.length) := by
  induction chunks generalizing buffer with
  | nil =>
    cases readError with
    | some error => cases read
    | none =>
      cases read
      exact ⟨[], [], rfl, by simp, .inl ⟨rfl, rfl⟩⟩
  | cons chunk rest inductionHypothesis =>
    unfold readConfigBody at read
    split at read
    · rename_i passed
      cases read
      exact ⟨[chunk], rest, rfl, by simp, .inr passed⟩
    · obtain ⟨seen, unread, rfl, rfl, stops⟩ := inductionHypothesis read
      exact ⟨chunk :: seen, unread, rfl, by simp, stops⟩

/-- A body that is read in full is read as it was sent. -/
theorem body_of_readInFull {request : AdminRequest} {body : Bytes} (inFull : ReadInFull request)
    (read : readConfigBody request.readError [] request.chunks = .ok body) :
    body = request.chunks.flatten := by
  obtain ⟨seen, rest, split, rfl, stops⟩ := readConfigBody_eq_ok read
  rw [List.nil_append] at stops
  have ended : rest = [] ∧ request.readError = none := stops.elim id (inFull seen rest split)
  rw [split, ended.1, List.append_nil, List.nil_append]

/-! ## What is persisted -/

section Persisted

variable (crates : ConfigCrates γ) (surroundings : Surroundings γ) (engine : AdminEngine)
  (request : AdminRequest) (before : AdminStore)

/-- An update that succeeds has been read to its end, and persists its configuration: the
    content of an update request, or else the body itself. -/
def PersistsWhatWasSent : Prop :=
  ∀ events answer after,
    (handleConfigUpdate crates surroundings engine request).Runs adminMeaning before events answer
      after →
    answer.isSuccess = true →
    ReadInFull request ∧ ∃ content reload,
      updateContent crates request.chunks.flatten = some (content, reload) ∧
      (engine.configStore = true → after.persisted = some content) ∧
      (reload = true → engine.dynamicState = true → after.state.rawConfig = content)

/-- What has been read is an update that can be accepted. -/
def Acceptable : Prop :=
  ∃ content reload config, Accepts crates request content reload config ∧
    (reload = true → engine.dynamicState = true →
      (newFromConfig crates surroundings config content 1).isOk)

variable {crates surroundings engine request before}

theorem exists_newFromConfig {config : γ} {content : String} (version : Nat)
    (buildable : (newFromConfig crates surroundings config content 1).isOk) :
    ∃ state, newFromConfig crates surroundings config content version = .ok state := by
  have isOk : (newFromConfig crates surroundings config content version).isOk :=
    newFromConfig_isOk_iff.mpr (newFromConfig_isOk_iff.mp buildable)
  cases built : newFromConfig crates surroundings config content version with
  | ok state => exact ⟨state, rfl⟩
  | error error =>
    rw [built] at isOk
    cases isOk

/-- The run of a reload whose configuration can be built. -/
theorem runs_hotReload {config : γ} {content message : String} {failed : String → AdminResponse}
    {store : AdminStore} {state : RunningState}
    (built : newFromConfig crates surroundings config content (nextVersion store.state) = .ok state) :
    (hotReload crates surroundings config content failed message).Runs adminMeaning store
      [⟨.loadState, store.state⟩, ⟨.storeState state, ()⟩]
      (.reloaded state.version state.configHash state.updatedAtEpochMs true message)
      { store with state := state } := by
  unfold hotReload
  refine .call ⟨rfl, rfl⟩ ?_
  simp only [Prog.bind, built]
  exact .call rfl (.ret _ _)

theorem exists_applied {content : String} {reload : Bool} {config : γ} (store : AdminStore)
    (buildable : reload = true → engine.dynamicState = true →
      (newFromConfig crates surroundings config content 1).isOk) :
    ∃ events answer after,
      (applyUpdate crates surroundings engine config content reload).Runs adminMeaning store events
        answer after ∧ answer.isSuccess = true := by
  unfold applyUpdate
  cases reload with
  | false =>
    cases engine.dynamicState with
    | false => exact ⟨_, _, _, .ret _ _, rfl⟩
    | true => exact ⟨_, _, _, .call ⟨rfl, rfl⟩ (.ret _ _), rfl⟩
  | true =>
    cases tracked : engine.dynamicState with
    | false => exact ⟨_, _, _, .ret _ _, rfl⟩
    | true =>
      obtain ⟨state, built⟩ := exists_newFromConfig (nextVersion store.state) (buildable rfl tracked)
      exact ⟨_, _, _, runs_hotReload built, rfl⟩

/-- An update that is accepted can succeed. -/
theorem exists_success (acceptable : Acceptable crates surroundings engine request) :
    ∃ events answer after,
      (handleConfigUpdate crates surroundings engine request).Runs adminMeaning before events answer
        after ∧ answer.isSuccess = true := by
  obtain ⟨content, reload, config, accepts, buildable⟩ := acceptable
  rw [handleConfigUpdate_of_accepts accepts]
  unfold persistUpdate
  cases engine.configStore with
  | false => exact exists_applied before buildable
  | true =>
    obtain ⟨events, answer, after, applied, success⟩ :=
      exists_applied { before with persisted := some content } buildable
    exact ⟨_, answer, after, .call (.inl ⟨rfl, rfl⟩) applied, success⟩

/-- Only what can be accepted succeeds. -/
theorem acceptable_of_success {events : List (Event adminSignature)} {answer : AdminResponse}
    {after : AdminStore}
    (run : (handleConfigUpdate crates surroundings engine request).Runs adminMeaning before events
      answer after) (success : answer.isSuccess = true) :
    Acceptable crates surroundings engine request := by
  rcases runs_handleConfigUpdate run with ⟨-, refused⟩ | ⟨content, reload, config, accepts, effect⟩
  · rw [refused] at success
    cases success
  · refine ⟨content, reload, config, accepts, fun asked tracked => ?_⟩
    cases effect with
    | kept version epochMs hash message unasked => simp [asked, tracked] at unasked
    | replaced message built =>
      have isOk : (newFromConfig crates surroundings config content
          (nextVersion (persist engine content before).state)).isOk := by
        rw [built]
        rfl
      exact newFromConfig_isOk_iff.mpr (newFromConfig_isOk_iff.mp isOk)
    | notApplied => cases success

/-- What an update that succeeds has read is persisted, and runs after a reload. -/
theorem persisted_of_success {events : List (Event adminSignature)} {answer : AdminResponse}
    {after : AdminStore}
    (run : (handleConfigUpdate crates surroundings engine request).Runs adminMeaning before events
      answer after) (success : answer.isSuccess = true) :
    ∃ body content reload, readConfigBody request.readError [] request.chunks = .ok body ∧
      updateContent crates body = some (content, reload) ∧
      (engine.configStore = true → after.persisted = some content) ∧
      (reload = true → engine.dynamicState = true → after.state.rawConfig = content) := by
  rcases runs_handleConfigUpdate run with ⟨-, refused⟩ | ⟨content, reload, config, accepts, effect⟩
  · rw [refused] at success
    cases success
  · obtain ⟨-, -, body, read, isUpdate⟩ := accepts
    refine ⟨body, content, reload, read, isUpdate, ?_⟩
    have saved (stored : engine.configStore = true) :
        (persist engine content before).persisted = some content := by
      simp [persist, stored]
    cases effect with
    | kept version epochMs hash message unasked =>
      exact ⟨saved, fun asked tracked => by simp [asked, tracked] at unasked⟩
    | replaced message built => exact ⟨saved, fun _ _ => (newFromConfig_eq_ok built).1⟩
    | notApplied => cases success

/-- An update persists what was sent if and only if its body is read in full, or what has been
    read of it cannot be accepted. -/
theorem persists_what_was_sent_iff :
    PersistsWhatWasSent crates surroundings engine request before ↔
      ReadInFull request ∨ ¬ Acceptable crates surroundings engine request := by
  constructor
  · intro persists
    by_cases acceptable : Acceptable crates surroundings engine request
    · obtain ⟨events, answer, after, run, success⟩ := exists_success acceptable
      exact .inl (persists events answer after run success).1
    · exact .inr acceptable
  · rintro (inFull | refused) events answer after run success
    · obtain ⟨body, content, reload, read, isUpdate, saved⟩ := persisted_of_success run success
      rw [body_of_readInFull inFull read] at isUpdate
      exact ⟨inFull, content, reload, isUpdate, saved⟩
    · exact absurd (acceptable_of_success run success) refused

end Persisted

/-! ## A comment that is cut off -/

/-- A comment that passes the limit, and the setting that follows it. -/
def longComment : Bytes := List.replicate (maxConfigBytes + 1) 35

def cutUpdate : AdminRequest := ⟨true, [longComment, asBytes "\nbind_addr = \"0.0.0.0:80\"\n"], none⟩

/-- Every text is a configuration, and no body an update request in JSON. -/
def tomlCrates : ConfigCrates Unit :=
  { plainCrates with updateRequest := fun _ => none }

/-- Visible ASCII is a text. -/
theorem exists_fromUtf8_of_visible {bytes : Bytes} (visible : bytes.all isVisibleAscii = true) :
    ∃ text, fromUtf8 bytes = some text := by
  have isText : HeaderValue.toStr bytes =
      some (String.ofList (bytes.map fun byte => Char.ofUInt8 byte)) := if_pos visible
  exact ⟨_, (congrArg fromUtf8 (HeaderValue.ofString_of_toStr isText)).symm.trans
    (fromUtf8_asBytes _)⟩

theorem longComment_visible : longComment.all isVisibleAscii = true := by
  unfold longComment
  rw [List.all_replicate]
  rfl

theorem longComment_length : longComment.length = maxConfigBytes + 1 := List.length_replicate

/-- The comment is persisted and runs, and the setting is lost. -/
theorem cut_update_persists : ∃ events answer after comment,
    (handleConfigUpdate tomlCrates movedHost connected cutUpdate).Runs adminMeaning firstVersion events
      answer after ∧
    answer.isSuccess = true ∧ asBytes comment = longComment ∧ after.persisted = some comment ∧
    after.state.rawConfig = comment ∧
    ¬ PersistsWhatWasSent tomlCrates movedHost connected cutUpdate firstVersion := by
  obtain ⟨comment, isComment⟩ := exists_fromUtf8_of_visible longComment_visible
  have isUpdate : updateContent tomlCrates longComment = some (comment, true) := by
    simp [updateContent, tomlCrates, isComment]
  have isRead : readConfigBody cutUpdate.readError [] cutUpdate.chunks = .ok longComment := by
    unfold cutUpdate readConfigBody
    rw [List.nil_append, if_pos (by rw [longComment_length]; exact Nat.lt_succ_self _)]
  have acceptable : Acceptable tomlCrates movedHost connected cutUpdate :=
    ⟨comment, true, (), ⟨rfl, rfl, longComment, isRead, isUpdate⟩, fun _ _ => rfl⟩
  have cut : ¬ ReadInFull cutUpdate := by
    intro inFull
    have ended := (inFull [longComment] [asBytes "\nbind_addr = \"0.0.0.0:80\"\n"] rfl
      (by simp [longComment_length])).1
    cases ended
  obtain ⟨events, answer, after, run, success⟩ := exists_success acceptable
  obtain ⟨body, content, reload, read, decoded, saved, runs⟩ := persisted_of_success run success
  obtain rfl : longComment = body := Except.ok.inj (isRead.symm.trans read)
  rw [isUpdate] at decoded
  cases decoded
  exact ⟨events, answer, after, comment, run, success, asBytes_of_fromUtf8 isComment, saved rfl,
    runs rfl rfl, fun persists => cut (persists events answer after run success).1⟩

end SpectraGQL.Admin
