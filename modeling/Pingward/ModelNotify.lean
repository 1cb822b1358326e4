import Pingward.ModelRows
import Pingward.ModelText

/-! The notifiers of `src/notify.rs` and how `notifier_for` builds one from a stored channel. What a notifier
sends, and over which client, is left out. -/

namespace Pingward

inductive SmtpTls where
  | starttls
  | tls
  | none
  deriving DecidableEq, Repr

structure SmtpConfig where
  host : String
  port : Nat
  username : Option String
  password : Option String
  sender : String
  tls : SmtpTls
  deriving DecidableEq, Repr

/-- The six implementations of the trait `Notifier`, each with its fields. -/
inductive Notifier where
  | webhook (url : String)
  | telegram (token chatId baseUrl : String)
  | slack (url : String)
  | ntfy (baseUrl topic : String) (token : Option String)
  | pushover (token user baseUrl : String)
  | email (smtp : Option SmtpConfig) (recipient : String)
  deriving DecidableEq, Repr

/-- `TelegramNotifier::new`. -/
def Notifier.newTelegram (token chatId : String) : Notifier :=
  .telegram token chatId (trimEndSlashes "https://api.telegram.org")

/-- `NtfyNotifier::new`. -/
def Notifier.newNtfy (baseUrl topic : String) (token : Option String) : Notifier :=
  .ntfy (trimEndSlashes baseUrl) topic (token.filter fun t => t ≠ "")

/-- `PushoverNotifier::new`. -/
def Notifier.newPushover (token user : String) : Notifier :=
  .pushover token user (trimEndSlashes "https://api.pushover.net")

/-- A trimmed, non-empty string field of the channel config. -/
def cfgStr (cfg : String → Option String) (key : String) : Option String :=
  ((cfg key).map trim).filter fun s => s ≠ ""

/-- `none` when the config is not JSON or a required field is missing or blank. -/
def notifierFor (parseConfig : String → Option (String → Option String)) (channel : Channel)
    (smtp : Option SmtpConfig) : Option Notifier := do
  let cfg ← parseConfig channel.configJson
  match channel.kind with
  | .webhook => (cfgStr cfg "url").map .webhook
  | .slack => (cfgStr cfg "url").map .slack
  | .telegram =>
      match cfgStr cfg "token", cfgStr cfg "chat_id" with
      | some token, some chatId => some (.newTelegram token chatId)
      | _, _ => none
  | .ntfy =>
      match cfgStr cfg "topic" with
      | some topic =>
          let baseUrl := (cfgStr cfg "base_url").getD "https://ntfy.sh"
          some (.newNtfy baseUrl topic (cfgStr cfg "token"))
      | none => none
  | .pushover =>
      match cfgStr cfg "token", cfgStr cfg "user" with
      | some token, some user => some (.newPushover token user)
      | _, _ => none
  | .email => (cfgStr cfg "to").map (.email smtp)

end Pingward
