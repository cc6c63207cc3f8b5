/-!
Closed choices: each value has a wire text, by which it is stored and exchanged, and a label for
display. Within a choice the wire texts differ, so reading one back finds the value.
-/
namespace Custody

class Choice (α : Type) where
  /-- The name by which messages call the choice. -/
  title : String
  all : List α
  wire : α → String
  label : α → String
  find_wire : ∀ a, all.find? (fun b => wire b == wire a) = some a

namespace Choice

def ofWire? [Choice α] (s : String) : Option α := (all (α := α)).find? fun a => wire a == s

@[simp] theorem ofWire?_wire [Choice α] (a : α) : ofWire? (wire a) = some a := find_wire a

theorem wire_of_ofWire? [Choice α] {s : String} {a : α} (h : ofWire? s = some a) : wire a = s := by
  simpa using List.find?_some h

theorem wire_inj [Choice α] {a b : α} (h : wire a = wire b) : a = b := by
  have ha := ofWire?_wire a
  rw [h, ofWire?_wire] at ha
  exact (Option.some.inj ha).symm

theorem mem_all [Choice α] (a : α) : a ∈ all (α := α) := List.mem_of_find?_eq_some (find_wire a)

def wires (α : Type) [Choice α] : List String := (all (α := α)).map wire

def rank [Choice α] [BEq α] (a : α) : Nat := (all (α := α)).idxOf a

end Choice

inductive SecretType where
  | password | sshKey | accessKey | token | apiKey
deriving DecidableEq, Repr

instance : Choice SecretType where
  title := "SecretType"
  all := [.password, .sshKey, .accessKey, .token, .apiKey]
  wire
    | .password => "password"
    | .sshKey => "ssh_key"
    | .accessKey => "access_key"
    | .token => "token"
    | .apiKey => "api_key"
  label
    | .password => "Password"
    | .sshKey => "SSH key"
    | .accessKey => "Access key"
    | .token => "Token"
    | .apiKey => "API key"
  find_wire a := by cases a <;> decide

inductive Source where
  | manual | template | collected
deriving DecidableEq, Repr

instance : Choice Source where
  title := "Source"
  all := [.manual, .template, .collected]
  wire
    | .manual => "manual"
    | .template => "template"
    | .collected => "collected"
  label
    | .manual => "Manual"
    | .template => "Template"
    | .collected => "Collected"
  find_wire a := by cases a <;> decide

inductive Policy where
  | error | skip | update
deriving DecidableEq, Repr

instance : Choice Policy where
  title := "OnInvalid"
  all := [.error, .skip, .update]
  wire
    | .error => "error"
    | .skip => "skip"
    | .update => "update"
  label
    | .error => "Failed"
    | .skip => "Skip"
    | .update => "Update"
  find_wire a := by cases a <;> decide

inductive Category where
  | host | device | database | cloud | web
deriving DecidableEq, Repr

instance : Choice Category where
  title := "Category"
  all := [.host, .device, .database, .cloud, .web]
  wire
    | .host => "host"
    | .device => "device"
    | .database => "database"
    | .cloud => "cloud"
    | .web => "web"
  label
    | .host => "Host"
    | .device => "Device"
    | .database => "Database"
    | .cloud => "Cloud service"
    | .web => "Web"
  find_wire a := by cases a <;> decide

inductive AssetType where
  | linux | windows | unix | other
  | general | switch | router | firewall
  | mysql | mariadb | postgresql | oracle | sqlserver | mongodb | redis
  | publicCloud | privateCloud | k8s
  | website
deriving DecidableEq, Repr

instance : Choice AssetType where
  title := "AssetType"
  all := [.linux, .windows, .unix, .other, .general, .switch, .router, .firewall, .mysql,
    .mariadb, .postgresql, .oracle, .sqlserver, .mongodb, .redis, .publicCloud, .privateCloud,
    .k8s, .website]
  wire
    | .linux => "linux"
    | .windows => "windows"
    | .unix => "unix"
    | .other => "other"
    | .general => "general"
    | .switch => "switch"
    | .router => "router"
    | .firewall => "firewall"
    | .mysql => "mysql"
    | .mariadb => "mariadb"
    | .postgresql => "postgresql"
    | .oracle => "oracle"
    | .sqlserver => "sqlserver"
    | .mongodb => "mongodb"
    | .redis => "redis"
    | .publicCloud => "public"
    | .privateCloud => "private"
    | .k8s => "k8s"
    | .website => "website"
  label
    | .linux => "Linux"
    | .windows => "Windows"
    | .unix => "Unix"
    | .other => "Other"
    | .general => "General"
    | .switch => "Switch"
    | .router => "Router"
    | .firewall => "Firewall"
    | .mysql => "MySQL"
    | .mariadb => "MariaDB"
    | .postgresql => "PostgreSQL"
    | .oracle => "Oracle"
    | .sqlserver => "SQL Server"
    | .mongodb => "MongoDB"
    | .redis => "Redis"
    | .publicCloud => "Public cloud"
    | .privateCloud => "Private cloud"
    | .k8s => "Kubernetes"
    | .website => "Website"
  find_wire a := by cases a <;> decide

def AssetType.category : AssetType → Category
  | linux | windows | unix | other => .host
  | general | switch | router | firewall => .device
  | mysql | mariadb | postgresql | oracle | sqlserver | mongodb | redis => .database
  | publicCloud | privateCloud | k8s => .cloud
  | website => .web

inductive Charset where
  | utf8 | gbk
deriving DecidableEq, Repr

instance : Choice Charset where
  title := "Charset"
  all := [.utf8, .gbk]
  wire
    | .utf8 => "utf-8"
    | .gbk => "gbk"
  label
    | .utf8 => "UTF-8"
    | .gbk => "GBK"
  find_wire a := by cases a <;> decide

inductive SuMethod where
  | sudo | su | enable | super | superLevel
deriving DecidableEq, Repr

instance : Choice SuMethod where
  title := "SuMethod"
  all := [.sudo, .su, .enable, .super, .superLevel]
  wire
    | .sudo => "sudo"
    | .su => "su"
    | .enable => "enable"
    | .super => "super"
    | .superLevel => "super_level"
  label
    | .sudo => "sudo su -"
    | .su => "su - "
    | .enable => "enable"
    | .super => "super 15"
    | .superLevel => "super level 15"
  find_wire a := by cases a <;> decide

/-- A set of secret types, listed in the declared order without repeats. -/
structure SecretTypes where
  toList : List SecretType
  inOrder : (Choice.all (α := SecretType)).filter (toList.contains ·) = toList := by decide
deriving DecidableEq, Repr

namespace SecretTypes

def ofList (ts : List SecretType) : SecretTypes where
  toList := (Choice.all (α := SecretType)).filter (ts.contains ·)
  inOrder := by
    apply List.filter_congr
    intro t ht
    simp [List.mem_filter, ht]

def empty : SecretTypes := ⟨[], by decide⟩

instance : Inhabited SecretTypes := ⟨empty⟩

instance : Membership SecretType SecretTypes := ⟨fun s t => t ∈ s.toList⟩

instance (t : SecretType) (s : SecretTypes) : Decidable (t ∈ s) :=
  inferInstanceAs (Decidable (t ∈ s.toList))

@[simp] theorem mem_ofList {t : SecretType} {ts : List SecretType} : t ∈ ofList ts ↔ t ∈ ts := by
  show t ∈ (ofList ts).toList ↔ _
  simp [ofList, List.mem_filter, Choice.mem_all]

@[simp] theorem ofList_toList (s : SecretTypes) : ofList s.toList = s := by
  cases s with
  | mk ts h => simp only [ofList, h]

def isEmpty (s : SecretTypes) : Bool := s.toList.isEmpty

end SecretTypes

/-- The secret types a protocol authenticates with unless its platform says otherwise. -/
def protocolSecretTypes (protocol : String) : List SecretType :=
  match protocol with
  | "ssh" => [.password, .sshKey]
  | "sftp" => [.password, .sshKey]
  | "k8s" => [.token]
  | "http" => [.password, .apiKey]
  | "https" => [.password, .apiKey]
  | "s3" => [.accessKey]
  | _ => [.password]

end Custody
