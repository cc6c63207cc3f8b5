/-!
The script that creates the tables of a new database.
-/
namespace Custody.Database

/-- A failure of the script quotes it in full. -/
def script : String := "\n".intercalate [
  "",
  "        CREATE TABLE schema_version (",
  "            id INTEGER PRIMARY KEY CHECK (id = 1),",
  "            version INTEGER NOT NULL",
  "        );",
  "",
  "        CREATE TABLE platforms (",
  "            id TEXT PRIMARY KEY,",
  "            name TEXT NOT NULL UNIQUE,",
  "            category TEXT NOT NULL,",
  "            type TEXT NOT NULL,",
  "            charset TEXT NOT NULL,",
  "            domain_enabled INTEGER NOT NULL,",
  "            su_enabled INTEGER NOT NULL,",
  "            su_method TEXT,",
  "            automation_json TEXT NOT NULL,",
  "            custom_fields_json TEXT NOT NULL,",
  "            comment TEXT NOT NULL DEFAULT '',",
  "            date_created TEXT NOT NULL",
  "        );",
  "",
  "        CREATE TABLE platform_protocols (",
  "            id INTEGER PRIMARY KEY AUTOINCREMENT,",
  "            platform_id TEXT NOT NULL REFERENCES platforms(id) ON DELETE CASCADE,",
  "            name TEXT NOT NULL,",
  "            port INTEGER NOT NULL,",
  "            is_primary INTEGER NOT NULL,",
  "            required INTEGER NOT NULL,",
  "            is_default INTEGER NOT NULL,",
  "            secret_types_json TEXT NOT NULL,",
  "            UNIQUE(platform_id, name)",
  "        );",
  "",
  "        CREATE TABLE assets (",
  "            id TEXT PRIMARY KEY,",
  "            name TEXT NOT NULL,",
  "            address TEXT NOT NULL,",
  "            platform_id TEXT NOT NULL REFERENCES platforms(id),",
  "            category TEXT NOT NULL,",
  "            type TEXT NOT NULL,",
  "            domain TEXT,",
  "            is_active INTEGER NOT NULL,",
  "            comment TEXT NOT NULL DEFAULT '',",
  "            date_created TEXT NOT NULL",
  "        );",
  "",
  "        CREATE TABLE asset_protocols (",
  "            id INTEGER PRIMARY KEY AUTOINCREMENT,",
  "            asset_id TEXT NOT NULL REFERENCES assets(id) ON DELETE CASCADE,",
  "            name TEXT NOT NULL,",
  "            port INTEGER NOT NULL,",
  "            is_primary INTEGER NOT NULL,",
  "            UNIQUE(asset_id, name)",
  "        );",
  "",
  "        CREATE TABLE labels (",
  "            id INTEGER PRIMARY KEY AUTOINCREMENT,",
  "            name TEXT NOT NULL,",
  "            value TEXT NOT NULL,",
  "            UNIQUE(name, value)",
  "        );",
  "",
  "        CREATE TABLE asset_labels (",
  "            asset_id TEXT NOT NULL REFERENCES assets(id) ON DELETE CASCADE,",
  "            label_id INTEGER NOT NULL REFERENCES labels(id) ON DELETE CASCADE,",
  "            PRIMARY KEY (asset_id, label_id)",
  "        );",
  "",
  "        CREATE TABLE nodes (",
  "            id TEXT PRIMARY KEY,",
  "            full_value TEXT NOT NULL UNIQUE,",
  "            parent_id TEXT REFERENCES nodes(id)",
  "        );",
  "",
  "        CREATE TABLE asset_nodes (",
  "            asset_id TEXT NOT NULL REFERENCES assets(id) ON DELETE CASCADE,",
  "            node_id TEXT NOT NULL REFERENCES nodes(id) ON DELETE CASCADE,",
  "            PRIMARY KEY (asset_id, node_id)",
  "        );",
  "",
  "        -- Templates are independent: accounts keep source_id as plain text",
  "        CREATE TABLE account_templates (",
  "            id TEXT PRIMARY KEY,",
  "            org_id TEXT NOT NULL,",
  "            name TEXT NOT NULL,",
  "            username TEXT NOT NULL,",
  "            secret TEXT,",
  "            secret_type TEXT NOT NULL,",
  "            privileged INTEGER NOT NULL,",
  "            is_active INTEGER NOT NULL,",
  "            comment TEXT,",
  "            date_created TEXT NOT NULL,",
  "            date_updated TEXT NOT NULL,",
  "            UNIQUE(org_id, name)",
  "        );",
  "",
  "        CREATE TABLE accounts (",
  "            id TEXT PRIMARY KEY,",
  "            asset_id TEXT NOT NULL REFERENCES assets(id) ON DELETE CASCADE,",
  "            name TEXT NOT NULL,",
  "            username TEXT NOT NULL,",
  "            secret TEXT,",
  "            secret_type TEXT NOT NULL,",
  "            source TEXT NOT NULL,",
  "            source_id TEXT,",
  "            version INTEGER NOT NULL,",
  "            privileged INTEGER NOT NULL,",
  "            is_active INTEGER NOT NULL,",
  "            comment TEXT NOT NULL DEFAULT '',",
  "            su_from TEXT REFERENCES accounts(id) ON DELETE SET NULL,",
  "            date_created TEXT NOT NULL,",
  "            date_updated TEXT NOT NULL,",
  "            UNIQUE(asset_id, name),",
  "            UNIQUE(asset_id, username, secret_type)",
  "        );",
  "",
  "        CREATE INDEX idx_accounts_asset ON accounts(asset_id);",
  "        CREATE INDEX idx_asset_protocols_asset ON asset_protocols(asset_id);",
  "",
  "        -- Outbox of push requests, drained by whatever performs the push",
  "        CREATE TABLE push_tasks (",
  "            id INTEGER PRIMARY KEY AUTOINCREMENT,",
  "            account_ids_json TEXT NOT NULL,",
  "            params_json TEXT,",
  "            created_at TEXT NOT NULL DEFAULT (datetime('now'))",
  "        );",
  "",
  "        CREATE INDEX idx_push_tasks_created ON push_tasks(created_at DESC);",
  "        "]

def firstTableOffset : Nat := ("\n        CREATE TABLE ").length

end Custody.Database
