import Custody.CommandLine.Arguments
import Custody.CommandLine.Storage
import Custody.Config
import Custody.Service
import Custody.Time.Instant

/-!
The commands. Each reads its payload, runs one operation on the database and prints the result.
-/
namespace Custody.CommandLine

section

variable {m : Type → Type} [Monad m] [Host m]

/-! ### Payloads -/

def readPayload (file : String) : Session m Json.Value := do
  let unread (f : FileFault) : Error := .other ("Failed to read " ++ file ++ ": " ++ f.message)
  let text ← if file = "-" then ask Host.input else onFiles unread (Host.readText file)
  check ((Json.read text).mapError fun e => .json (.unreadable e))

def readDraft (d : Json.Decoder α) (file : String) : Session m α := do
  check ((d (← readPayload file)).mapError .json)

def readObject (file : String) : Session m Json.Object := do check (payloadOf (← readPayload file))

/-! ### Commands on the database -/

def accountViews (labels : Registry) (as : List Account) : Json.Value :=
  .list (as.map fun a => a.view labels false)

def pushLine (now : Time.Instant) (t : Store.PushTask) : String :=
  let number := toString t.id
  "  #" ++ number ++ String.ofList (List.replicate (4 - number.length) ' ') ++ " | " ++
    t.createdAt.age now ++ " | " ++ ",".intercalate t.push.accountIds ++ " " ++
    (t.push.params.map (·.compact)).getD ""

def listPushes (s : Storage) (limit : Option Nat) : Session m Unit := do
  let (tasks, now) ← s.look fun store =>
    (store.tables.listPushTasks (limit.filter (· < 0x8000000000000000)), store.clock)
  if tasks.isEmpty then say "No pushes queued yet."
  else
    say "Push log:"
    tasks.forM fun t => say (pushLine now t)

def onRecords (c : Config) (s : Storage) (command : RecordCommand) : Session m Unit := do
  let labels := c.registry
  match command with
  | .addPlatform file =>
    let draft ← readDraft Platform.Draft.decode file
    sayJson (← s.perform (Service.createPlatform draft)).toJson
  | .listPlatforms => sayJson (.list ((← s.look Store.platforms).map Platform.toJson))
  | .listTypes category => sayJson (.list ((labels.typeChoices category).map Labeled.toJson))
  | .addAsset file =>
    let draft ← readDraft Asset.Draft.decode file
    let policy ← check c.policy
    let (a, accounts) ← s.perform (Service.createAsset draft c.org policy)
    sayJson (Json.Value.object
      [("asset", a.view labels), ("accounts", accountViews labels accounts)]).canonical
  | .listAssets => sayJson (.list ((← s.look Store.assets).map (·.view labels)))
  | .showAsset id =>
    match ← s.look (Store.asset? · id) with
    | some a => sayJson (a.view labels)
    | none => throw (.notFound (.asset id))
  | .deleteAsset id =>
    s.perform (Service.deleteAsset id)
    say ("Deleted asset " ++ id)
  | .addTemplate file =>
    let payload ← readObject file
    sayJson ((← s.perform (Service.createTemplate payload c.org)).view labels)
  | .listTemplates protocols =>
    let ts ← s.look fun store => match protocols with
      | some list => Service.templatesFor (Text.splitList list) store
      | none => Store.templates store []
    sayJson (.list (ts.map (·.view labels)))
  | .deleteTemplate id =>
    s.perform (Service.deleteTemplate id)
    say ("Deleted template " ++ id)
  | .addAccount file =>
    let payload ← readObject file
    let policy ← check c.policy
    let (a, outcome) ← s.perform (Service.createAccount payload policy)
    sayJson (Json.Value.object
      [("state", .text outcome.wire), ("account", a.view labels false)]).canonical
  | .updateAccount id file =>
    let payload ← readObject file
    sayJson ((← s.perform (Service.updateAccount id payload)).view labels false)
  | .addAccounts file =>
    let payload ← readObject file
    let policy ← check c.policy
    let entries ← s.perform (Service.bulkCreateAccounts payload policy)
    sayJson (.list (entries.map Bulk.Entry.toJson))
  | .listAccounts asset =>
    sayJson (accountViews labels (← s.look (Store.accounts · asset)))
  | .showAccount id reveal =>
    match ← s.look (Store.account? · id) with
    | some a => sayJson (a.view labels reveal)
    | none => throw (.notFound (.account id))
  | .listPushes limit => listPushes s limit

/-! ### Commands on the configuration -/

def findConfig : List String → Session m (Option String)
  | [] => return none
  | path :: rest => do if ← ask (Host.present path) then return some path else findConfig rest

def loadConfig (path : Option String) : Session m Config := do
  match path with
  | none => return .empty
  | some path => check (Config.read (← onFiles ioError (Host.readText path)))

def generateConfig (path : String) (overwrite : Bool) : Session m Unit := do
  if !overwrite && (← ask (Host.present path)) then throw (.config (.fileExists path))
  onFiles ioError (Host.makeParents path)
  onFiles ioError (Host.writeText path Config.template)
  say ("Config file generated at: " ++ path)

def listConfig (home : String) (c : Config) : Session m Unit := do
  say "Current Configuration:"
  Config.Key.all.forM fun k => do say ("  " ++ k.name ++ ": " ++ (← check (c.valueOf home k)))
  say ("  db: " ++ c.databasePath home)
  if !c.labels.isEmpty then
    say ""
    say "Labels:"
    c.labels.forM fun l => say ("  " ++ l.value ++ " = " ++ l.label)

def setConfig (path : Option String) (c : Config) (key value : String) : Session m Unit := do
  match path with
  | none => throw (.config .noFile)
  | some path =>
    let (r, c) := c.set key value
    check r
    onFiles ioError (Host.writeText path c.print)
    say ("Updated " ++ key ++ " = " ++ value)

def onConfig (home : String) (path : Option String) (c : Config) (command : ConfigCommand) :
    Session m Unit :=
  match command with
  | .generate target overwrite => generateConfig (target.getD (Config.homePath home)) overwrite
  | .list => listConfig home c
  | .get key => do say (← check (c.value home key))
  | .set key value => setConfig path c key value

/-! ### Running -/

def execute (i : Invocation) : Session m Unit := do
  let home ← ask Host.home
  let configPath ← match i.config with
    | some path => pure (some path)
    | none => findConfig (Config.candidates home)
  let c ← loadConfig configPath
  match i.command with
  | .config command => onConfig home configPath c command
  | .records command =>
    onRecords c (← Storage.openNamed (i.database.getD (c.databasePath home))) command

def usage : String := String.join [
  "Manage asset accounts, templates and platforms\n\n",
  "Usage: warden [--db FILE] [--config FILE] COMMAND\n\n",
  "Commands:\n",
  "  platform add --file FILE | list | types [--category CATEGORY]\n",
  "  asset add --file FILE | list | show ID | delete ID\n",
  "  template add --file FILE | list [--protocols LIST] | delete ID\n",
  "  account add --file FILE | update ID --file FILE | bulk --file FILE |\n",
  "    list [--asset ID] | show ID [--reveal]\n",
  "  push-log [--limit COUNT]\n",
  "  config generate [--path FILE] [--overwrite] | list | get KEY | set KEY VALUE\n"]

def failure (printed : String) (e : Error) : Report :=
  let entries := match e with
    | .bulkFailed entries => (Json.Value.list (entries.map Bulk.Entry.toJson)).pretty 0 ++ "\n"
    | _ => ""
  ⟨1, printed ++ entries, "error: " ++ e.message ++ "\n"⟩

def run (words : List String) : m Report := do
  match Invocation.read words with
  | .error .help => return ⟨0, usage, ""⟩
  | .error .misuse => return ⟨2, "", usage⟩
  | .ok i =>
    match ← (execute i).run.run "" with
    | (.ok (), printed) => return ⟨0, printed, ""⟩
    | (.error e, printed) => return failure printed e

end

end Custody.CommandLine
