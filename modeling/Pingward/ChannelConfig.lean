import Pingward.JsonText
import Pingward.FrameCalls
import Pingward.FrameAuth
import Pingward.ProgramMeets
import Pingward.RowOperation

/-! The config of a channel over its whole life. A blank field keeps what is stored, so the stored config is a
function of every form accepted so far: `latest` says which, without the store. The writers (the form and the API)
and the reader (`notifierFor`) agree on it for each of the six kinds. -/

open StoreProgram

namespace Pingward

/-! ### The fields of a config -/

/-- The values a config holds, over all kinds. -/
inductive ChannelField where
  | webhookUrl
  | slackUrl
  | telegramToken
  | telegramChatId
  | ntfyBaseUrl
  | ntfyTopic
  | ntfyToken
  | pushoverToken
  | pushoverUser
  | emailTo
  deriving DecidableEq, Repr

/-- The key a field is stored under. -/
def ChannelField.key : ChannelField → String
  | .webhookUrl | .slackUrl => "url"
  | .telegramToken | .ntfyToken | .pushoverToken => "token"
  | .telegramChatId => "chat_id"
  | .ntfyBaseUrl => "base_url"
  | .ntfyTopic => "topic"
  | .pushoverUser => "user"
  | .emailTo => "to"

/-- What stands in a field that was never filled in. -/
def ChannelField.fallback : ChannelField → String
  | .ntfyBaseUrl => "https://ntfy.sh"
  | _ => ""

/-- The fields of a kind. -/
def ChannelKind.fields : ChannelKind → List ChannelField
  | .webhook => [.webhookUrl]
  | .slack => [.slackUrl]
  | .telegram => [.telegramToken, .telegramChatId]
  | .ntfy => [.ntfyBaseUrl, .ntfyTopic, .ntfyToken]
  | .pushover => [.pushoverToken, .pushoverUser]
  | .email => [.emailTo]

/-- What a form submits for a field. -/
def ChannelForm.value (form : ChannelForm) : ChannelField → String
  | .webhookUrl => form.webhookUrl
  | .slackUrl => form.slackUrl
  | .telegramToken => form.telegramToken
  | .telegramChatId => form.telegramChatId
  | .ntfyBaseUrl => form.ntfyBaseUrl
  | .ntfyTopic => form.ntfyTopic
  | .ntfyToken => form.ntfyToken
  | .pushoverToken => form.pushoverToken
  | .pushoverUser => form.pushoverUser
  | .emailTo => form.emailTo

/-- Whether a form clears a field: the ntfy token has a box for it. -/
def ChannelForm.clears (form : ChannelForm) : ChannelField → Bool
  | .ntfyToken => form.ntfyTokenClear
  | _ => false

/-- Every field blank, and nothing cleared. -/
def ChannelForm.Blank (form : ChannelForm) : Prop :=
  (∀ field, trim (form.value field) = "") ∧ form.ntfyTokenClear = false

/-- The last non-blank trimmed value submitted for a field since it was last cleared, the oldest form first. -/
def latest (forms : List ChannelForm) (field : ChannelField) : String :=
  (((forms.rtakeWhile fun form => !form.clears field).map fun form => trim (form.value field)).filter
    fun value => value ≠ "").getLast?.getD field.fallback

/-- The config of a kind with the given values. -/
def ChannelKind.config (kind : ChannelKind) (value : ChannelField → String) : List (String × String) :=
  kind.fields.map fun field => (field.key, value field)

/-- The notifier of a kind with the given values. -/
def ChannelKind.notifier (kind : ChannelKind) (smtp : Option SmtpConfig) (value : ChannelField → String) : Notifier :=
  match kind with
  | .webhook => .webhook (value .webhookUrl)
  | .slack => .slack (value .slackUrl)
  | .telegram => .newTelegram (value .telegramToken) (value .telegramChatId)
  | .ntfy => .newNtfy (value .ntfyBaseUrl) (value .ntfyTopic) (some (value .ntfyToken))
  | .pushover => .newPushover (value .pushoverToken) (value .pushoverUser)
  | .email => .email smtp (value .emailTo)

/-- The keys of a config differ. -/
theorem ChannelKind.nodup_keys (kind : ChannelKind) (value : ChannelField → String) :
    ((kind.config value).map Prod.fst).Nodup := by
  rw [config, List.map_map]
  change (kind.fields.map ChannelField.key).Nodup
  cases kind <;> decide

/-- What a config holds under the key of one of its fields. -/
theorem ChannelKind.lookup_config {kind : ChannelKind} {field : ChannelField} (value : ChannelField → String)
    (hfield : field ∈ kind.fields) : (kind.config value).lookup field.key = some (value field) := by
  cases kind <;> simp only [fields, List.mem_cons, List.not_mem_nil, or_false] at hfield
  case webhook => subst hfield; rfl
  case slack => subst hfield; rfl
  case telegram => rcases hfield with rfl | rfl <;> rfl
  case ntfy => rcases hfield with rfl | rfl | rfl <;> rfl
  case pushover => rcases hfield with rfl | rfl <;> rfl
  case email => subst hfield; rfl

/-! ### One submission after another -/

/-- A form that clears the field. -/
theorem latest_cleared {form : ChannelForm} {field : ChannelField} (forms : List ChannelForm)
    (hclears : form.clears field = true) : latest (forms ++ [form]) field = field.fallback := by
  rw [latest, List.rtakeWhile_concat_neg _ _ _ (by simp [hclears])]
  rfl

/-- A form that fills the field in. -/
theorem latest_filled {form : ChannelForm} {field : ChannelField} (forms : List ChannelForm)
    (hclears : form.clears field = false) (hfilled : trim (form.value field) ≠ "") :
    latest (forms ++ [form]) field = trim (form.value field) := by
  rw [latest, List.rtakeWhile_concat_pos _ _ _ (by simp [hclears]), List.map_append, List.filter_append]
  simp [hfilled]

/-- A form that leaves the field blank. -/
theorem latest_blank {form : ChannelForm} {field : ChannelField} (forms : List ChannelForm)
    (hclears : form.clears field = false) (hblank : trim (form.value field) = "") :
    latest (forms ++ [form]) field = latest forms field := by
  rw [latest, List.rtakeWhile_concat_pos _ _ _ (by simp [hclears]), List.map_append, List.filter_append]
  simp [hblank, latest]

/-- A blank form changes no field. -/
theorem latest_of_blank {form : ChannelForm} (hblank : form.Blank) (forms : List ChannelForm) :
    latest (forms ++ [form]) = latest forms := by
  funext field
  refine latest_blank forms ?_ (hblank.1 field)
  cases field <;> first | rfl | exact hblank.2

/-- A field holds its fallback or something that was submitted for it. -/
theorem latest_cases (forms : List ChannelForm) (field : ChannelField) :
    latest forms field = field.fallback ∨
      ∃ form ∈ forms, latest forms field = trim (form.value field) ∧ trim (form.value field) ≠ "" := by
  unfold latest
  cases hlast : (((forms.rtakeWhile fun form => !form.clears field).map fun form => trim (form.value field)).filter
      fun value => value ≠ "").getLast? with
  | none => exact Or.inl rfl
  | some value =>
      obtain ⟨hvalue, hfilled⟩ := List.mem_filter.mp (List.mem_of_getLast? hlast)
      obtain ⟨form, hform, rfl⟩ := List.mem_map.mp hvalue
      exact Or.inr ⟨form, (List.rtakeWhile_suffix _ _).subset hform, rfl, of_decide_eq_true hfilled⟩

/-- Every value is trimmed. -/
theorem trim_latest (forms : List ChannelForm) (field : ChannelField) : trim (latest forms field) = latest forms field := by
  rcases latest_cases forms field with hlatest | ⟨form, -, hlatest, -⟩
  · rw [hlatest]
    cases field <;> decide
  · rw [hlatest, trim_trim]

theorem latest_ne_empty (forms : List ChannelForm) {field : ChannelField} (hfallback : field.fallback ≠ "") :
    latest forms field ≠ "" := by
  rcases latest_cases forms field with hlatest | ⟨form, -, hlatest, hfilled⟩
  · rwa [hlatest]
  · rwa [hlatest]

/-! ### Writing and reading a config -/

/-- The JSON library reads back the object of strings it printed. -/
def ReadsBack (X : Crates) : Prop :=
  ∀ fields : List (String × String), (fields.map Prod.fst).Nodup →
    X.parseConfig (X.renderConfig fields) = some fun key => fields.lookup key

/-- Every field but the ntfy token is filled in. -/
def ChannelKind.Complete (kind : ChannelKind) (value : ChannelField → String) : Prop :=
  ∀ field ∈ kind.fields, field ≠ .ntfyToken → value field ≠ ""

/-- What the stored config says of a field, or what stands in a field left empty. -/
def storedValue (stored : Option (String → Option String)) (field : ChannelField) : String :=
  let value := (stored.bind fun get => get field.key).getD ""
  if value = "" then field.fallback else value

section Merge

variable {X : Crates} {kind : ChannelKind} {form : ChannelForm} {forms : List ChannelForm}
  {stored : Option (String → Option String)}

theorem mergedField_latest {field : ChannelField} (hstored : storedValue stored field = latest forms field)
    (hclears : form.clears field = false) :
    latest (forms ++ [form]) field = mergedField stored (form.value field) field.key ∨
      latest (forms ++ [form]) field = field.fallback ∧ mergedField stored (form.value field) field.key = "" := by
  by_cases hblank : trim (form.value field) = ""
  · rw [latest_blank forms hclears hblank, ← hstored]
    simp only [storedValue, mergedField, hblank, ne_eq, not_true_eq_false, if_false]
    split
    · rename_i hempty
      exact Or.inr ⟨rfl, hempty⟩
    · exact Or.inl rfl
  · rw [latest_filled forms hclears hblank]
    simp [mergedField, hblank]

/-- A field with nothing to fall back on. -/
theorem mergedField_eq_latest {field : ChannelField} (hstored : storedValue stored field = latest forms field)
    (hclears : form.clears field = false) (hfallback : field.fallback = "") :
    mergedField stored (form.value field) field.key = latest (forms ++ [form]) field := by
  rcases mergedField_latest hstored hclears with hlatest | ⟨hlatest, hempty⟩
  · exact hlatest.symm
  · rw [hlatest, hempty, hfallback]

theorem ensure_then {p : Prop} [Decidable p] {message : String} {α : Type} {value result : α}
    (hok : (do ensure p message; return value) = .ok result) : p ∧ result = value := by
  unfold ensure at hok
  split at hok
  · rename_i hp
    cases hok
    exact ⟨hp, rfl⟩
  · cases hok

variable (forms) in
/-- An accepted form leaves the latest values, with every required field filled in. -/
theorem channelConfig_latest {config : String} (hstored : ∀ field ∈ kind.fields, storedValue stored field = latest forms field)
    (hok : channelConfig X kind form stored = .ok config) :
    config = X.renderConfig (kind.config (latest (forms ++ [form]))) ∧ kind.Complete (latest (forms ++ [form])) := by
  have hmerged (field : ChannelField) (hfield : field ∈ kind.fields) (hclears : form.clears field = false)
      (hfallback : field.fallback = "") :
      mergedField stored (form.value field) field.key = latest (forms ++ [form]) field :=
    mergedField_eq_latest (hstored field hfield) hclears hfallback
  cases kind with
  | webhook =>
      obtain ⟨hurl, rfl⟩ := ensure_then hok
      have hvalue : mergedField stored form.webhookUrl "url" = latest (forms ++ [form]) .webhookUrl :=
        hmerged .webhookUrl (by decide) rfl rfl
      rw [hvalue] at hurl ⊢
      exact ⟨rfl, by simpa [ChannelKind.Complete, ChannelKind.fields] using hurl⟩
  | slack =>
      obtain ⟨hurl, rfl⟩ := ensure_then hok
      have hvalue : mergedField stored form.slackUrl "url" = latest (forms ++ [form]) .slackUrl :=
        hmerged .slackUrl (by decide) rfl rfl
      rw [hvalue] at hurl ⊢
      exact ⟨rfl, by simpa [ChannelKind.Complete, ChannelKind.fields] using hurl⟩
  | telegram =>
      obtain ⟨hboth, rfl⟩ := ensure_then hok
      have htoken : mergedField stored form.telegramToken "token" = latest (forms ++ [form]) .telegramToken :=
        hmerged .telegramToken (by decide) rfl rfl
      have hchat : mergedField stored form.telegramChatId "chat_id" = latest (forms ++ [form]) .telegramChatId :=
        hmerged .telegramChatId (by decide) rfl rfl
      rw [htoken, hchat] at hboth ⊢
      exact ⟨rfl, by simpa [ChannelKind.Complete, ChannelKind.fields] using hboth⟩
  | ntfy =>
      obtain ⟨htopic, rfl⟩ := ensure_then hok
      have hvalue : mergedField stored form.ntfyTopic "topic" = latest (forms ++ [form]) .ntfyTopic :=
        hmerged .ntfyTopic (by decide) rfl rfl
      have hbase : (if mergedField stored form.ntfyBaseUrl "base_url" = "" then "https://ntfy.sh"
          else mergedField stored form.ntfyBaseUrl "base_url") = latest (forms ++ [form]) .ntfyBaseUrl := by
        have hkept : form.clears .ntfyBaseUrl = false := rfl
        rcases mergedField_latest (hstored .ntfyBaseUrl (by decide)) hkept with hlatest | ⟨hlatest, hempty⟩
        · have hmerge : latest (forms ++ [form]) .ntfyBaseUrl = mergedField stored form.ntfyBaseUrl "base_url" := hlatest
          rw [← hmerge, if_neg (latest_ne_empty _ (by decide))]
        · have hmerge : mergedField stored form.ntfyBaseUrl "base_url" = "" := hempty
          rw [if_pos hmerge, hlatest]
          rfl
      have htoken : (if form.ntfyTokenClear then "" else mergedField stored form.ntfyToken "token") =
          latest (forms ++ [form]) .ntfyToken := by
        cases hclear : form.ntfyTokenClear with
        | true =>
            have hclears : form.clears .ntfyToken = true := hclear
            exact (latest_cleared forms hclears).symm
        | false =>
            rw [if_neg Bool.false_ne_true]
            exact hmerged .ntfyToken (by decide) hclear rfl
      have hfilled : latest (forms ++ [form]) .ntfyBaseUrl ≠ "" := latest_ne_empty _ (by decide)
      rw [hvalue] at htopic ⊢
      rw [hbase, htoken]
      exact ⟨rfl, by simpa [ChannelKind.Complete, ChannelKind.fields] using ⟨hfilled, htopic⟩⟩
  | pushover =>
      obtain ⟨hboth, rfl⟩ := ensure_then hok
      have htoken : mergedField stored form.pushoverToken "token" = latest (forms ++ [form]) .pushoverToken :=
        hmerged .pushoverToken (by decide) rfl rfl
      have huser : mergedField stored form.pushoverUser "user" = latest (forms ++ [form]) .pushoverUser :=
        hmerged .pushoverUser (by decide) rfl rfl
      rw [htoken, huser] at hboth ⊢
      exact ⟨rfl, by simpa [ChannelKind.Complete, ChannelKind.fields] using hboth⟩
  | email =>
      obtain ⟨hrecipient, rfl⟩ := ensure_then hok
      have hvalue : mergedField stored form.emailTo "to" = latest (forms ++ [form]) .emailTo :=
        hmerged .emailTo (by decide) rfl rfl
      rw [hvalue] at hrecipient ⊢
      exact ⟨rfl, by simpa [ChannelKind.Complete, ChannelKind.fields] using hrecipient⟩

end Merge

section Deliver

variable {X : Crates}

theorem cfgStr_filled {cfg : String → Option String} {key value : String} (hcfg : cfg key = some value)
    (htrim : trim value = value) (hfilled : value ≠ "") : cfgStr cfg key = some value := by
  simp [cfgStr, hcfg, htrim, hfilled]

/-- A stored config gives the notifier of its values. -/
theorem notifierFor_config (hX : ReadsBack X) {channel : Channel} {value : ChannelField → String}
    (hconfig : channel.configJson = X.renderConfig (channel.kind.config value))
    (htrim : ∀ field, trim (value field) = value field) (hcomplete : channel.kind.Complete value)
    (smtp : Option SmtpConfig) :
    notifierFor X.parseConfig channel smtp = some (channel.kind.notifier smtp value) := by
  have hread : X.parseConfig channel.configJson = some fun key => (channel.kind.config value).lookup key := by
    rw [hconfig]
    exact hX _ (channel.kind.nodup_keys value)
  have hfilled (field : ChannelField) (hfield : field ∈ channel.kind.fields) (hne : field ≠ .ntfyToken) :
      cfgStr (fun key => (channel.kind.config value).lookup key) field.key = some (value field) :=
    cfgStr_filled (ChannelKind.lookup_config value hfield) (htrim field) (hcomplete field hfield hne)
  unfold notifierFor
  simp only [hread, Option.bind_eq_bind, Option.bind_some]
  generalize hkind : channel.kind = kind at hfilled ⊢
  cases kind with
  | webhook =>
      have hurl := hfilled .webhookUrl (by decide) (by decide)
      simp only [ChannelField.key] at hurl
      simp only [hurl, Option.map_some, ChannelKind.notifier]
  | slack =>
      have hurl := hfilled .slackUrl (by decide) (by decide)
      simp only [ChannelField.key] at hurl
      simp only [hurl, Option.map_some, ChannelKind.notifier]
  | telegram =>
      have htoken := hfilled .telegramToken (by decide) (by decide)
      have hchat := hfilled .telegramChatId (by decide) (by decide)
      simp only [ChannelField.key] at htoken hchat
      simp only [htoken, hchat, ChannelKind.notifier]
  | ntfy =>
      have htopic := hfilled .ntfyTopic (by decide) (by decide)
      have hbase := hfilled .ntfyBaseUrl (by decide) (by decide)
      simp only [ChannelField.key] at htopic hbase
      have htoken : cfgStr (fun key => (ChannelKind.ntfy.config value).lookup key) "token" =
          (some (value .ntfyToken)).filter fun t => t ≠ "" := by
        have hlookup : (ChannelKind.ntfy.config value).lookup "token" = some (value .ntfyToken) :=
          ChannelKind.lookup_config value (by decide : .ntfyToken ∈ ChannelKind.ntfy.fields)
        simp only [cfgStr, hlookup, Option.map_some, htrim]
      simp only [htopic, hbase, htoken, Option.getD_some, ChannelKind.notifier, Notifier.newNtfy, Option.filter_filter]
      simp
  | pushover =>
      have htoken := hfilled .pushoverToken (by decide) (by decide)
      have huser := hfilled .pushoverUser (by decide) (by decide)
      simp only [ChannelField.key] at htoken huser
      simp only [htoken, huser, ChannelKind.notifier]
  | email =>
      have hrecipient := hfilled .emailTo (by decide) (by decide)
      simp only [ChannelField.key] at hrecipient
      simp only [hrecipient, Option.map_some, ChannelKind.notifier]

end Deliver

/-! ### Submissions -/

/-- What a submission asks for. -/
inductive ChannelAction where
  | create (projectId : Int) (form : ChannelForm)
  | edit (id : Int) (form : ChannelForm)
  deriving DecidableEq, Repr

def ChannelAction.webRoute : ChannelAction → WebRoute
  | .create projectId form => .channelCreate projectId form
  | .edit id form => .channelUpdate id form

def ChannelAction.adminRoute : ChannelAction → AdminRoute
  | .create projectId form => .channelCreate projectId form
  | .edit id form => .channelUpdate id form

def ChannelAction.apiRoute : ChannelAction → ApiRoute
  | .create projectId form => .createChannel projectId (.ok form)
  | .edit id form => .updateChannel id (.ok form)

/-- A whole request, through the owner's form, the form under `/admin`, or the API. -/
inductive Submission where
  | web (ctx : WebContext) (action : ChannelAction)
  | admin (ctx : WebContext) (action : ChannelAction)
  | api (ctx : ApiContext) (action : ChannelAction)

def Submission.action : Submission → ChannelAction
  | .web _ action => action
  | .admin _ action => action
  | .api _ action => action

/-- The answer to a form that was accepted sends the browser on to the project. -/
def Response.accepts : Response → Bool
  | .redirect location _ => location ≠ "/login"
  | _ => false

def ApiResponse.accepts : ApiResponse → Bool
  | .channel _ _ => true
  | _ => false

/-- The answer says that the submission was accepted. -/
def accepted {A α : Type} (accepts : α → Bool) : Outcome A α → Bool
  | .ok value => accepts value
  | _ => false

/-- Whether a submission is accepted, and the store it leaves. -/
def Submission.result (X : Crates) (db : Db) : Submission → Bool × Db
  | .web ctx action =>
      let ran := run exec (webRequest X ctx action.webRoute) db
      (accepted Response.accepts ran.outcome, ran.state)
  | .admin ctx action =>
      let ran := run exec (adminRequest X ctx action.adminRoute) db
      (accepted Response.accepts ran.outcome, ran.state)
  | .api ctx action =>
      let ran := run exec (apiRequest X ctx action.apiRoute) db
      (accepted ApiResponse.accepts ran.outcome, ran.state)

/-- The store after the submissions. -/
def submitAll (X : Crates) (db : Db) (submissions : List Submission) : Db :=
  submissions.foldl (fun db submission => (submission.result X db).2) db

/-- The forms among them that were accepted as edits of a channel. -/
def acceptedEdits (X : Crates) (id : Int) : Db → List Submission → List ChannelForm
  | _, [] => []
  | db, submission :: rest =>
      let (accepted, after) := submission.result X db
      match submission.action with
      | .edit target form =>
          if accepted ∧ target = id then form :: acceptedEdits X id after rest else acceptedEdits X id after rest
      | .create _ _ => acceptedEdits X id after rest

/-- What an accepted submission has done to the channels. -/
def ChannelAction.Done (X : Crates) (before after : Db) : ChannelAction → Prop
  | .create projectId form =>
      ∃ kind name config now, validateChannel X form = .ok (kind, name, config) ∧
        ∀ other, after.findChannel other = if other = before.channels.next
          then some ⟨before.channels.next, projectId, kind, name, config, now⟩ else before.findChannel other
  | .edit id form =>
      ∃ channel kind name config, before.findChannel id = some channel ∧
        validateChannelUpdate X form (some channel) = .ok (kind, name, config) ∧
        ∀ other, after.findChannel other = if other = id
          then some { channel with name := name, configJson := config } else before.findChannel other

/-- An accepted submission has done what it asks for, any other has left the channels as they were. -/
def Settled (X : Crates) (action : ChannelAction) (before : Db) (accepted : Bool) (after : Db) : Prop :=
  if accepted then action.Done X before after else after.channels = before.channels

section Requests

variable {A α β : Type} {X : Crates} {before db : Db} {action : ChannelAction} {accepts : α → Bool}

/-- The program leaves the channels as they are and ends with a value of `Q`. -/
def Looks (Q : α → Prop) (program : StoreProg A α) (db : Db) : Prop :=
  program.Meets Eq (answered exec) (fun before after => after.channels = before.channels) (fun value _ => Q value) db

theorem looks_only {program : StoreProg A α}
    (honly : program.Only (fun c => .channels ∉ c.writes) fun _ => True) : Looks (fun _ => True) program db := by
  refine honly.meets (I := fun _ => True) ?_ trivial
  rintro c before moved answer after hc - hmoved hanswer
  have hafter : (exec c moved).2 = after := congrArg Prod.snd hanswer
  subst hafter
  exact ⟨exec_frame hc moved, trivial⟩

theorem looks_findChannel {wrap : StoreError → A} (id : Int) :
    Looks (fun found => found = db.findChannel id) (Prog.perform wrap (StoreCall.findChannel id)) db := by
  apply Prog.Meets.perform
  rintro moved rfl answer after hanswer
  cases hanswer
  exact ⟨rfl, fun value hvalue => (Except.ok.inj hvalue).symm⟩

/-- How a request ends, seen from `before`. -/
structure Submits (X : Crates) (action : ChannelAction) (accepts : α → Bool) (before : Db) (program : StoreProg A α)
    (db : Db) : Prop where
  settled : Settled X action before (accepted accepts (run exec program db).outcome) (run exec program db).state

/-- In front of the part that decides stands a part that only looks. -/
theorem Submits.after {accepts : β → Bool} {Q : α → Prop} {program : StoreProg A α} {rest : α → StoreProg A β}
    (hbefore : db.channels = before.channels) (hlooks : Looks Q program db)
    (hrest : ∀ value after, after.channels = before.channels → Q value →
      Submits X action accepts before (rest value) after) :
    Submits X action accepts before (program.bind rest) db := by
  refine ⟨Prog.Meets.run_bind (P := fun outcome after => Settled X action before (accepted accepts outcome) after)
    hlooks (fun _ => rfl) (fun _ _ _ hfirst hsecond => hsecond.trans hfirst) ?_ ?_⟩
  · intro after hafter
    exact ⟨fun _ => hafter.trans hbefore, hafter.trans hbefore⟩
  · intro value after hafter hvalue
    exact (hrest value after (hafter.trans hbefore) hvalue).settled

/-- A refusal. -/
theorem submits_ret {value : α} (hvalue : accepts value = false) (hbefore : db.channels = before.channels) :
    Submits X action accepts before (.ret value : StoreProg A α) db := by
  constructor
  simp only [run_ret, accepted, hvalue, Settled]
  exact hbefore

/-- A call that may be refused, and what follows it. -/
theorem submits_perform {accepts : β → Bool} {wrap : StoreError → A} {c : StoreCall} {rest : c.Res → StoreProg A β}
    (hrefused : ∀ error, (exec c db).1 = .error error → (exec c db).2.channels = before.channels)
    (hrest : ∀ value, (exec c db).1 = .ok value → Submits X action accepts before (rest value) (exec c db).2) :
    Submits X action accepts before ((Prog.perform wrap c).bind rest) db := by
  have hrun : run exec ((Prog.perform wrap c).bind rest) db =
      match (exec c db).1 with
      | .ok value => run exec (rest value) (exec c db).2
      | .error error => ⟨.fail (wrap error), (exec c db).2, []⟩ := by
    rw [Prog.perform, Prog.call_bind, run_call]
    cases (exec c db).1 <;> rfl
  constructor
  rw [hrun]
  cases hanswer : (exec c db).1 with
  | ok value => exact (hrest value hanswer).settled
  | error error => exact hrefused error hanswer

/-- What is found in a store with the same channels. -/
theorem findChannel_congr {id : Int} (hbefore : db.channels = before.channels) :
    db.findChannel id = before.findChannel id := congrArg (fun channels => channels.toTable.find id) hbefore

/-- The create call, when the form was valid. -/
theorem submits_createChannel {accepts : β → Bool} {wrap : StoreError → A} {projectId : Int} {form : ChannelForm}
    {kind : ChannelKind} {name config : String} {now : Instant} {rest : Int → StoreProg A β}
    (hbefore : db.channels = before.channels) (hvalid : validateChannel X form = .ok (kind, name, config))
    (hrest : ∀ (id : Int) (after : Db), (after.findChannel id).isSome = true →
      (ChannelAction.create projectId form).Done X before after →
      Submits X (.create projectId form) accepts before (rest id) after) :
    Submits X (.create projectId form) accepts before
      ((Prog.perform wrap (StoreCall.createChannel ⟨projectId, kind, name, config⟩ now)).bind rest) db := by
  refine submits_perform ?_ ?_
  · intro error herror
    simp only [exec, Db.createChannel] at herror ⊢
    split at herror
    · rename_i hproject
      rw [if_pos hproject]
      exact hbefore
    · cases herror
  · intro id hid
    simp only [exec, Db.createChannel] at hid ⊢
    split at hid
    · cases hid
    · rename_i hproject
      rw [if_neg hproject]
      obtain rfl := Except.ok.inj hid
      refine hrest _ _ ?_ ⟨kind, name, config, now, hvalid, fun other => ?_⟩
      · exact Option.isSome_iff_exists.mpr ⟨_, (db.channels.find_insert _ _ _).trans (if_pos rfl)⟩
      · rw [← hbefore, ← findChannel_congr hbefore]
        exact db.channels.find_insert _ _ other

/-- The update call, when the form was valid. -/
theorem submits_updateChannel {accepts : β → Bool} {wrap : StoreError → A} {id : Int} {form : ChannelForm}
    {channel : Channel} {kind : ChannelKind} {name config : String} {rest : Unit → StoreProg A β}
    (hbefore : db.channels = before.channels) (hfound : before.findChannel id = some channel)
    (hvalid : validateChannelUpdate X form (some channel) = .ok (kind, name, config))
    (hrest : ∀ after : Db, (after.findChannel id).isSome = true → (ChannelAction.edit id form).Done X before after →
      Submits X (.edit id form) accepts before (rest ()) after) :
    Submits X (.edit id form) accepts before
      ((Prog.perform wrap (StoreCall.updateChannel id name config)).bind rest) db := by
  refine submits_perform (fun error herror => by cases herror) fun value _ => ?_
  have hfind : db.findChannel id = some channel := (findChannel_congr hbefore).trans hfound
  have hself : (db.updateChannel id name config).findChannel id = some { channel with name := name, configJson := config } :=
    (db.channels.toTable.find_update_self id (fun row => { row with name := name, configJson := config })
      fun _ => rfl).trans (congrArg (Option.map _) hfind)
  refine hrest _ (Option.isSome_iff_exists.mpr ⟨_, hself⟩) ⟨channel, kind, name, config, hfound, hvalid, fun other => ?_⟩
  split
  · rename_i hother
    rw [hother]
    exact hself
  · rename_i hother
    rw [← findChannel_congr hbefore]
    exact db.channels.toTable.find_update_of_ne hother (fun row => { row with name := name, configJson := config })
      fun _ => rfl

/-- The answer to an accepted form. -/
theorem submits_accept {value : α} {after : Db} (hvalue : accepts value = true) (hdone : action.Done X before after) :
    Submits X action accepts before (.ret value : StoreProg A α) after := by
  constructor
  simp only [run_ret, accepted, hvalue, Settled]
  exact hdone

/-- The API reads the channel back before it answers. -/
theorem submits_reload {id : Int} {status : Nat} {after : Db} (hfound : (after.findChannel id).isSome = true)
    (hdone : action.Done X before after) :
    Submits X action ApiResponse.accepts before ((apiStore (.findChannel id)).bind fun found =>
      (okOr .internal found).bind fun channel => .ret (.channel status (.ofChannel channel))) after := by
  refine submits_perform (fun error herror => by cases herror) fun found hfind => ?_
  obtain rfl := Except.ok.inj hfind
  obtain ⟨channel, hchannel⟩ := Option.isSome_iff_exists.mp hfound
  change Submits X action ApiResponse.accepts before ((okOr .internal (after.findChannel id)).bind _) after
  rw [hchannel]
  exact submits_accept rfl hdone

theorem redirect_accepts (base : String) (projectId : Int) (hbase : base = "" ∨ base = "/admin") (flash : Option String) :
    (Response.redirect (base ++ "/projects/" ++ i64ToString projectId) flash).accepts = true := by
  refine decide_eq_true fun hlogin => ?_
  have htext := congrArg String.toList hlogin
  rcases hbase with rfl | rfl <;> simp at htext

theorem channelCreateCore_submits (ctx : WebContext) (sid : String) (user : User) {base : String}
    (hbase : base = "" ∨ base = "/admin") (projectId : Int) (form : ChannelForm) (hbefore : db.channels = before.channels) :
    Submits X (.create projectId form) Response.accepts before
      (channelCreateCore X ctx sid user base projectId form) db := by
  unfold channelCreateCore
  split
  · exact submits_ret rfl hbefore
  · rename_i kind name config hvalid
    refine submits_createChannel hbefore hvalid fun id after _ hdone => ?_
    exact submits_accept (redirect_accepts base projectId hbase none) hdone

theorem channelUpdateCore_submits (ctx : WebContext) (sid : String) (user : User) {base : String}
    (hbase : base = "" ∨ base = "/admin") {id : Int} {channel : Channel} (form : ChannelForm)
    (hbefore : db.channels = before.channels) (hfound : before.findChannel id = some channel) :
    Submits X (.edit id form) Response.accepts before (channelUpdateCore X ctx sid user base channel form) db := by
  have hid : channel.id = id := before.channels.toTable.find_key hfound
  unfold channelUpdateCore
  split
  · exact submits_ret rfl hbefore
  · rename_i kind name config hvalid
    rw [hid]
    refine submits_updateChannel hbefore hfound hvalid fun after _ hdone => ?_
    exact submits_accept (redirect_accepts base channel.projectId hbase none) hdone

/-! ### Handlers -/

theorem looks_ownedProject (id userId : Int) : Looks (fun _ => True) (ownedProject id userId) db :=
  looks_only (ownedProject_only userId List.not_mem_nil)

theorem looks_adminProject (ctx : WebContext) (user : User) (method : String) (id : Int) :
    Looks (fun _ => True) (adminProject ctx user method id) db :=
  looks_only
    (adminProject_only user method List.not_mem_nil fun _ => by simp [StoreCall.writes])

theorem looks_resolveProject (ctx : ApiContext) (user : User) (method : String) (id : Int) :
    Looks (fun _ => True) (resolveProject ctx user method id) db :=
  looks_only
    (resolveProject_only user method List.not_mem_nil fun _ => by simp [StoreCall.writes])

/-- The channel a handler goes on with is the one stored under the id. -/
theorem looks_ownedChannel (id userId : Int) :
    Looks (fun channel => db.findChannel id = some channel) (ownedChannel id userId) db := by
  refine Prog.Meets.bind (looks_findChannel id) fun found after hfound => ?_
  subst hfound
  split
  · trivial
  · rename_i channel hchannel
    exact Prog.Meets.bind (looks_ownedProject channel.projectId userId) fun _ _ _ => hchannel

theorem looks_adminChannel (ctx : WebContext) (user : User) (method : String) (id : Int) :
    Looks (fun channel => db.findChannel id = some channel) (adminChannel ctx user method id) db := by
  refine Prog.Meets.bind (looks_findChannel id) fun found after hfound => ?_
  subst hfound
  split
  · trivial
  · rename_i channel hchannel
    have haudit (project : Option Project) (last : Db) : Looks (fun _ => True)
        (auditAccess ctx user method "channel" channel.id (project.map Project.userId)) last :=
      looks_only (auditAccess_only fun _ => by simp [StoreCall.writes])
    refine Prog.Meets.bind (looks_only (store_only List.not_mem_nil)) fun project last _ => ?_
    exact Prog.Meets.bind (haudit project last) fun _ _ _ => hchannel

theorem looks_resolveOwned (ctx : ApiContext) (user : User) (method targetType : String) (targetId : Int)
    (owner : Option Int) (row : α) :
    Looks (fun value => value = row) (resolveOwned ctx user method targetType targetId owner row) db := by
  unfold resolveOwned
  split
  · exact rfl
  · split
    · have haudit : Looks (fun _ => True) (auditCrossUser ctx user method targetType targetId owner) db :=
        looks_only
          ((apiStore_only (by simp [StoreCall.writes])).bind fun _ => trivial)
      exact Prog.Meets.bind haudit fun _ _ _ => rfl
    · trivial

theorem looks_resolveChannel (ctx : ApiContext) (user : User) (method : String) (id : Int) :
    Looks (fun channel => db.findChannel id = some channel) (resolveChannel ctx user method id) db := by
  refine Prog.Meets.bind (looks_findChannel id) fun found after hfound => ?_
  subst hfound
  cases hchannel : db.findChannel id with
  | none => trivial
  | some channel =>
      have hproject : Looks (fun _ => True) (apiStore (.findProject channel.projectId)) after :=
        looks_only (apiStore_only List.not_mem_nil)
      have hresolve (project : Option Project) (last : Db) : Looks (fun value => some channel = some value)
          (resolveOwned ctx user method "channel" channel.id (project.map Project.userId) channel) last :=
        (looks_resolveOwned ctx user method "channel" channel.id _ channel).mono (fun _ _ h => h)
          fun _ _ hvalue => congrArg some hvalue.symm
      have hboth : Looks (fun value => some channel = some value)
          ((apiStore (.findProject channel.projectId)).bind fun project =>
            resolveOwned ctx user method "channel" channel.id (project.map Project.userId) channel) after :=
        Prog.Meets.bind hproject fun project last _ => hresolve project last
      exact hboth

theorem webHandle_submits (ctx : WebContext) (sid : String) (user : User) (action : ChannelAction)
    (hbefore : db.channels = before.channels) :
    Submits X action Response.accepts before (webHandle X ctx sid user action.webRoute) db := by
  cases action with
  | create projectId form =>
      exact Submits.after hbefore (looks_ownedProject projectId user.id) fun _ after hafter _ =>
        channelCreateCore_submits ctx sid user (Or.inl rfl) projectId form hafter
  | edit id form =>
      refine Submits.after hbefore (looks_ownedChannel id user.id) fun channel after hafter hfound => ?_
      rw [findChannel_congr hbefore] at hfound
      exact channelUpdateCore_submits ctx sid user (Or.inl rfl) form hafter hfound

theorem adminHandle_submits (ctx : WebContext) (sid : String) (user : User) (action : ChannelAction)
    (hbefore : db.channels = before.channels) :
    Submits X action Response.accepts before (adminHandle X ctx sid user action.adminRoute) db := by
  cases action with
  | create projectId form =>
      exact Submits.after hbefore (looks_adminProject ctx user "POST" projectId) fun _ after hafter _ =>
        channelCreateCore_submits ctx sid user (Or.inr rfl) projectId form hafter
  | edit id form =>
      refine Submits.after hbefore (looks_adminChannel ctx user "POST" id) fun channel after hafter hfound => ?_
      rw [findChannel_congr hbefore] at hfound
      exact channelUpdateCore_submits ctx sid user (Or.inr rfl) form hafter hfound

theorem apiHandle_submits (ctx : ApiContext) (user : User) (action : ChannelAction)
    (hbefore : db.channels = before.channels) :
    Submits X action ApiResponse.accepts before (apiHandle X ctx user action.apiRoute) db := by
  cases action with
  | create projectId form =>
      change Submits X _ _ before ((resolveProject ctx user "POST" projectId).bind fun _ =>
        (orBadRequest (validateChannel X form)).bind _) db
      refine Submits.after hbefore (looks_resolveProject ctx user "POST" projectId) fun _ after hafter _ => ?_
      cases hvalid : validateChannel X form with
      | error message => exact ⟨hafter⟩
      | ok fields =>
          obtain ⟨kind, name, config⟩ := fields
          exact submits_createChannel hafter hvalid fun id last hfound hdone => submits_reload hfound hdone
  | edit id form =>
      change Submits X _ _ before ((resolveChannel ctx user "PATCH" id).bind fun existing =>
        (orBadRequest (validateChannelUpdate X form (some existing))).bind _) db
      refine Submits.after hbefore (looks_resolveChannel ctx user "PATCH" id) fun channel after hafter hfound => ?_
      rw [findChannel_congr hbefore] at hfound
      cases hvalid : validateChannelUpdate X form (some channel) with
      | error message => exact ⟨hafter⟩
      | ok fields =>
          obtain ⟨kind, name, config⟩ := fields
          exact submits_updateChannel hafter hfound hvalid fun last hlast hdone => submits_reload hlast hdone

theorem looks_auth {ctx : WebContext} {program : StoreProg A α} (honly : program.Only (AuthCall ctx) fun _ => False) :
    Looks (fun _ => True) program db :=
  looks_only (honly.mono (fun _ hauth => by cases hauth <;> simp [StoreCall.writes]) fun _ hevent => hevent.elim)

theorem webRequest_submits (ctx : WebContext) (action : ChannelAction) :
    Submits X action Response.accepts db (webRequest X ctx action.webRoute) db := by
  refine Submits.after rfl (looks_auth (requestSession_only ctx)) fun sid after hafter _ => ?_
  split
  · exact submits_ret rfl hafter
  · have hhandle (user : User) (last : Db) (hlast : last.channels = db.channels) :
        Submits X action Response.accepts db (webHandle X ctx sid user action.webRoute) last :=
      webHandle_submits ctx sid user action hlast
    have hauth : Looks (fun _ => True) (resolveUser ctx sid) after := looks_auth (resolveUser_only ctx sid)
    cases action <;>
    · refine Submits.after hafter hauth fun found last hlast _ => ?_
      cases found with
      | none => exact submits_ret rfl hlast
      | some user => exact hhandle user last hlast

theorem adminRequest_submits (ctx : WebContext) (action : ChannelAction) :
    Submits X action Response.accepts db (adminRequest X ctx action.adminRoute) db := by
  refine Submits.after rfl (looks_auth (requestSession_only ctx)) fun sid after hafter _ => ?_
  split
  · exact submits_ret rfl hafter
  · refine Submits.after hafter (looks_auth (resolveUser_only ctx sid)) fun found last hlast _ => ?_
    cases found with
    | none => exact submits_ret rfl hlast
    | some user =>
        dsimp only
        split
        · exact adminHandle_submits ctx sid user action hlast
        · exact submits_ret rfl hlast

theorem apiRequest_submits (ctx : ApiContext) (action : ChannelAction) :
    Submits X action ApiResponse.accepts db (apiRequest X ctx action.apiRoute) db := by
  have huser : Looks (fun _ => True) (apiUser X ctx) db :=
    looks_only (apiUser_only X (fun _ => by simp [StoreCall.writes]) fun _ => List.not_mem_nil)
  exact Submits.after rfl huser fun user after hafter _ => apiHandle_submits ctx user action hafter

end Requests

/-- **One submission.** It is accepted and has done what it asks for, or it has left the channels as they were. -/
theorem Submission.settled (X : Crates) (db : Db) (submission : Submission) :
    Settled X submission.action db (submission.result X db).1 (submission.result X db).2 := by
  cases submission with
  | web ctx action => exact (webRequest_submits ctx action).settled
  | admin ctx action => exact (adminRequest_submits ctx action).settled
  | api ctx action => exact (apiRequest_submits ctx action).settled

/-! ### The whole life of a channel -/

section Life

variable {X : Crates} {before after : Db} {id : Int} {kind : ChannelKind} {forms : List ChannelForm} {form : ChannelForm}

/-- The channel is stored with its kind and the latest values of the forms, enough to deliver through it. -/
structure Kept (X : Crates) (db : Db) (id : Int) (kind : ChannelKind) (forms : List ChannelForm) : Prop where
  row : ∃ channel, db.findChannel id = some channel ∧ channel.kind = kind ∧
    channel.configJson = X.renderConfig (kind.config (latest forms))
  complete : kind.Complete (latest forms)

theorem except_bind_ok {ε α β : Type} {first : Except ε α} {rest : α → Except ε β} {value : β}
    (hok : first >>= rest = .ok value) : ∃ middle, first = .ok middle ∧ rest middle = .ok value := by
  cases first with
  | error error => cases hok
  | ok middle => exact ⟨middle, rfl, hok⟩

/-- What an accepted form says of a new channel. -/
theorem validateChannel_ok {name config : String} (hvalid : validateChannel X form = .ok (kind, name, config)) :
    parseNewChannelKind form.kind = .ok kind ∧ channelConfig X kind form none = .ok config := by
  have hnamed {named : String} (hrest : (parseNewChannelKind form.kind >>= fun kind =>
      channelConfig X kind form none >>= fun config => pure (kind, named, config)) = .ok (kind, name, config)) :
      parseNewChannelKind form.kind = .ok kind ∧ channelConfig X kind form none = .ok config := by
    obtain ⟨parsed, hparsed, hrest⟩ := except_bind_ok hrest
    obtain ⟨rendered, hrendered, hrest⟩ := except_bind_ok hrest
    cases hrest
    exact ⟨hparsed, hrendered⟩
  simp only [validateChannel, validateChannelUpdate, Option.bind_none, pure_bind] at hvalid
  split at hvalid
  · cases hvalid
  · exact hnamed hvalid
  · exact hnamed hvalid

/-- What an accepted form says of a stored channel. -/
theorem validateChannelUpdate_ok {channel : Channel} {name config : String}
    (hvalid : validateChannelUpdate X form (some channel) = .ok (kind, name, config)) :
    channelConfig X channel.kind form (X.parseConfig channel.configJson) = .ok config := by
  have hnamed {named : String} (hrest : (channelConfig X channel.kind form (X.parseConfig channel.configJson) >>=
      fun config => pure (channel.kind, named, config)) = .ok (kind, name, config)) :
      channelConfig X channel.kind form (X.parseConfig channel.configJson) = .ok config := by
    obtain ⟨rendered, hrendered, hrest⟩ := except_bind_ok hrest
    cases hrest
    exact hrendered
  simp only [validateChannelUpdate, Option.bind_some, pure_bind] at hvalid
  split at hvalid
  · cases hvalid
  · exact hnamed hvalid
  · exact hnamed hvalid

/-- Nothing is stored yet. -/
theorem storedValue_none (field : ChannelField) : storedValue none field = latest [] field := by
  cases field <;> rfl

/-- The config that `Kept` describes is read back field by field. -/
theorem storedValue_config (hX : ReadsBack X) {field : ChannelField} (hfield : field ∈ kind.fields) :
    storedValue (X.parseConfig (X.renderConfig (kind.config (latest forms)))) field = latest forms field := by
  rw [hX _ (kind.nodup_keys _)]
  simp only [storedValue, Option.bind_some, ChannelKind.lookup_config (latest forms) hfield, Option.getD_some]
  split
  · rename_i hempty
    rw [hempty]
    by_contra hfallback
    exact latest_ne_empty forms hfallback hempty
  · rfl

/-- The channel right after its creation. -/
theorem kept_create {projectId : Int} (hdone : (ChannelAction.create projectId form).Done X before after) :
    ∃ kind, parseNewChannelKind form.kind = .ok kind ∧ Kept X after before.channels.next kind [form] := by
  obtain ⟨kind, name, config, now, hvalid, hchannels⟩ := hdone
  obtain ⟨hkind, hconfig⟩ := validateChannel_ok hvalid
  obtain ⟨hlatest, hcomplete⟩ := channelConfig_latest [] (fun field _ => storedValue_none field) hconfig
  exact ⟨kind, hkind, ⟨_, (hchannels _).trans (if_pos rfl), rfl, hlatest⟩, hcomplete⟩

/-- Another channel is created. -/
theorem Kept.create {projectId : Int} (hkept : Kept X before id kind forms)
    (hdone : (ChannelAction.create projectId form).Done X before after) : Kept X after id kind forms := by
  obtain ⟨⟨channel, hfound, hrow⟩, hcomplete⟩ := hkept
  obtain ⟨_, _, _, _, -, hchannels⟩ := hdone
  have hne : id ≠ before.channels.next := by
    rintro rfl
    have hnone : before.findChannel before.channels.next = none := before.channels.find_next
    rw [hnone] at hfound
    cases hfound
  exact ⟨⟨channel, (hchannels id).trans ((if_neg hne).trans hfound), hrow⟩, hcomplete⟩

/-- Another channel is edited. -/
theorem Kept.edit_other {other : Int} (hne : other ≠ id) (hkept : Kept X before id kind forms)
    (hdone : (ChannelAction.edit other form).Done X before after) : Kept X after id kind forms := by
  obtain ⟨⟨channel, hfound, hrow⟩, hcomplete⟩ := hkept
  obtain ⟨_, _, _, _, -, -, hchannels⟩ := hdone
  exact ⟨⟨channel, (hchannels id).trans ((if_neg hne.symm).trans hfound), hrow⟩, hcomplete⟩

/-- The channel itself is edited. -/
theorem Kept.edit (hX : ReadsBack X) (hkept : Kept X before id kind forms)
    (hdone : (ChannelAction.edit id form).Done X before after) : Kept X after id kind (forms ++ [form]) := by
  obtain ⟨⟨channel, hfound, hkind, hconfig⟩, -⟩ := hkept
  obtain ⟨existing, _, name, config, hexisting, hvalid, hchannels⟩ := hdone
  obtain rfl : channel = existing := Option.some.inj (hfound.symm.trans hexisting)
  have hmerged := validateChannelUpdate_ok hvalid
  rw [hkind, hconfig] at hmerged
  obtain ⟨hlatest, hcomplete⟩ := channelConfig_latest forms (fun _ hfield => storedValue_config hX hfield) hmerged
  exact ⟨⟨_, (hchannels id).trans (if_pos rfl), hkind, hlatest⟩, hcomplete⟩

/-- The table has not changed. -/
theorem Kept.unchanged (hkept : Kept X before id kind forms) (hchannels : after.channels = before.channels) :
    Kept X after id kind forms := by
  obtain ⟨⟨channel, hfound, hrow⟩, hcomplete⟩ := hkept
  exact ⟨⟨channel, (findChannel_congr hchannels).trans hfound, hrow⟩, hcomplete⟩

/-- **Every run.** After any submissions the channel holds the latest values of its creation and of the edits
that were accepted. -/
theorem Kept.submitAll (hX : ReadsBack X) (submissions : List Submission) (hkept : Kept X before id kind forms) :
    Kept X (submitAll X before submissions) id kind (forms ++ acceptedEdits X id before submissions) := by
  induction submissions generalizing before forms with
  | nil => simpa [Pingward.submitAll, acceptedEdits] using hkept
  | cons submission rest ih =>
      have hsettled := submission.settled X before
      generalize hresult : submission.result X before = result at hsettled
      obtain ⟨accepted, after⟩ := result
      have hrest : Pingward.submitAll X before (submission :: rest) = Pingward.submitAll X after rest := by
        simp only [Pingward.submitAll, List.foldl_cons, hresult]
      rw [hrest]
      cases accepted with
      | false =>
          have hedits : acceptedEdits X id before (submission :: rest) = acceptedEdits X id after rest := by
            simp only [acceptedEdits, hresult]
            cases submission.action <;> simp
          rw [hedits]
          exact ih (hkept.unchanged hsettled)
      | true =>
          cases haction : submission.action with
          | create projectId form =>
              rw [haction] at hsettled
              have hedits : acceptedEdits X id before (submission :: rest) = acceptedEdits X id after rest := by
                simp only [acceptedEdits, hresult, haction]
              rw [hedits]
              exact ih (hkept.create hsettled)
          | edit target form =>
              rw [haction] at hsettled
              by_cases htarget : target = id
              · subst htarget
                have hedits : acceptedEdits X target before (submission :: rest) =
                    form :: acceptedEdits X target after rest := by
                  simp only [acceptedEdits, hresult, haction, and_self, if_true]
                rw [hedits, List.append_cons]
                exact ih (hkept.edit hX hsettled)
              · have hedits : acceptedEdits X id before (submission :: rest) = acceptedEdits X id after rest := by
                  simp only [acceptedEdits, hresult, haction, htarget, and_false, if_false]
                rw [hedits]
                exact ih (hkept.edit_other htarget hsettled)

end Life

/-- **Channel configuration.** After a submission creates a channel, its kind is settled. After any further
submissions, rejected ones included, its config holds under each key of the kind the last non-blank trimmed value
submitted for it, an edit with every field blank leaves the config as it is, and the notifier built from it is the
one of exactly these values. A rejected submission changes no channel. -/
theorem channel_configuration (X : Crates) (hX : ReadsBack X) (db : Db) (submission : Submission) (projectId : Int)
    (form : ChannelForm) (haction : submission.action = .create projectId form)
    (haccepted : (submission.result X db).1 = true) :
    ∃ kind, parseNewChannelKind form.kind = .ok kind ∧
      ∀ later : List Submission, ∃ channel,
        let now := submitAll X db (submission :: later)
        let forms := form :: acceptedEdits X db.channels.next (submission.result X db).2 later
        now.findChannel db.channels.next = some channel ∧ channel.kind = kind ∧
          channel.configJson = X.renderConfig (kind.config (latest forms)) ∧
          (∃ cfg, X.parseConfig channel.configJson = some cfg ∧
            ∀ field ∈ kind.fields, cfg field.key = some (latest forms field)) ∧
          (∀ smtp, notifierFor X.parseConfig channel smtp = some (kind.notifier smtp (latest forms))) ∧
          (∀ (edit : Submission) (blank : ChannelForm), edit.action = .edit db.channels.next blank → blank.Blank →
            ((edit.result X now).2.findChannel db.channels.next).map Channel.configJson = some channel.configJson) ∧
          ∀ other : Submission, (other.result X now).1 = false → (other.result X now).2.channels = now.channels := by
  have hsettled := submission.settled X db
  rw [haccepted, haction] at hsettled
  obtain ⟨kind, hkind, hkept⟩ := kept_create hsettled
  refine ⟨kind, hkind, fun later => ?_⟩
  have hlater := hkept.submitAll hX later
  rw [List.singleton_append] at hlater
  have hnow : submitAll X db (submission :: later) = submitAll X (submission.result X db).2 later := rfl
  rw [hnow]
  generalize submitAll X (submission.result X db).2 later = now at hlater ⊢
  obtain ⟨⟨channel, hfound, rfl, hconfig⟩, hcomplete⟩ := hlater
  refine ⟨channel, hfound, rfl, hconfig, ⟨fun key => (channel.kind.config (latest _)).lookup key, ?_,
      fun field hfield => ChannelKind.lookup_config _ hfield⟩,
    notifierFor_config hX hconfig (trim_latest _) hcomplete, ?_, ?_⟩
  · rw [hconfig]
    exact hX _ (channel.kind.nodup_keys _)
  · intro edit blank hedit hblank
    have hafter := Kept.submitAll hX [edit] ⟨⟨channel, hfound, rfl, hconfig⟩, hcomplete⟩
    have hsame : latest (form :: acceptedEdits X db.channels.next (submission.result X db).2 later ++
        acceptedEdits X db.channels.next now [edit]) =
          latest (form :: acceptedEdits X db.channels.next (submission.result X db).2 later) := by
      simp only [acceptedEdits, hedit, and_true]
      split
      · exact latest_of_blank hblank _
      · rw [List.append_nil]
    obtain ⟨⟨after, hlast, -, hrendered⟩, -⟩ := hafter
    rw [hsame, ← hconfig] at hrendered
    exact (congrArg (Option.map Channel.configJson) hlast).trans (congrArg some hrendered)
  · intro other hrejected
    have hother := other.settled X now
    rw [hrejected] at hother
    exact hother

/-! ### An ntfy channel -/

/-- The sample crates, with JSON. -/
def jsonCrates : Crates := { plainCrates with parseConfig := JsonText.readFields, renderConfig := JsonText.printObject }

theorem jsonCrates_readsBack : ReadsBack jsonCrates := JsonText.readFields_printObject

/-- A new ntfy channel with a token. -/
def ntfyForm : ChannelForm := ⟨"phone", " ntfy ", "", "", "", "", "", " alerts ", "tk", false, "", "", ""⟩

/-- The token is cleared and the server named. -/
def clearedForm : ChannelForm := ⟨"", "slack", "", "", "", "", "https://ntfy.example/ ", "", "", true, "", "", ""⟩

def blankForm : ChannelForm := ⟨"", "", "", "", "", "", "", "  ", "", false, "", "", ""⟩

/-- An edit of the channel, an edit of one that does not exist, and a blank edit. -/
def ntfyEdits : List Submission :=
  [.web .sample (.edit 1 clearedForm), .web .sample (.edit 7 ntfyForm), .web .sample (.edit 1 blankForm)]

theorem channel_configuration_sample :
    ∃ channel, (submitAll jsonCrates .sample (.web .sample (.create 1 ntfyForm) :: ntfyEdits)).findChannel 1 = some channel ∧
      channel.kind = .ntfy ∧ notifierFor jsonCrates.parseConfig channel none =
        some (.ntfy "https://ntfy.example" "alerts" none) := by
  obtain ⟨kind, hkind, hlater⟩ := channel_configuration jsonCrates jsonCrates_readsBack .sample
    (.web .sample (.create 1 ntfyForm)) 1 ntfyForm rfl (by decide +kernel)
  obtain rfl : .ntfy = kind := Except.ok.inj
    ((by decide +kernel : parseNewChannelKind ntfyForm.kind = .ok .ntfy).symm.trans hkind)
  obtain ⟨channel, hfound, hsame, -, -, hnotifier, -⟩ := hlater ntfyEdits
  have hforms : acceptedEdits jsonCrates Db.sample.channels.next
      ((Submission.web .sample (.create 1 ntfyForm)).result jsonCrates .sample).2 ntfyEdits = [clearedForm, blankForm] := by
    decide +kernel
  refine ⟨channel, hfound, hsame, (hnotifier none).trans ?_⟩
  rw [hforms]
  decide +kernel

end Pingward
