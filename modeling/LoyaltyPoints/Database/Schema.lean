/-! # Database: the schema

    The tables are made by migrations, which are applied in the order of their versions. -/

namespace LoyaltyPoints

/-- A step of the schema. -/
structure Migration where
  version : Int
  description : String
  script : String
deriving DecidableEq

namespace Migration

/-- The script of the first migration: orders, balances and withdrawals. -/
def createTablesScript : String :=
  "-- 订单：号码全局唯一，状态由积分流水线推进\n" ++
  "CREATE TABLE IF NOT EXISTS orders (\n" ++
  "    order_id    UUID PRIMARY KEY,\n" ++
  "    user_id     VARCHAR(64)    NOT NULL,\n" ++
  "    number      VARCHAR(32)    NOT NULL UNIQUE,\n" ++
  "    status      VARCHAR(16)    NOT NULL DEFAULT 'NEW',\n" ++
  "    accrual     NUMERIC(16, 2) NOT NULL DEFAULT 0,\n" ++
  "    uploaded_at TIMESTAMPTZ    NOT NULL DEFAULT NOW()\n" ++
  ");\n" ++
  "\n" ++
  "CREATE INDEX IF NOT EXISTS idx_orders_user_uploaded ON orders (user_id, uploaded_at);\n" ++
  "CREATE INDEX IF NOT EXISTS idx_orders_pending ON orders (uploaded_at)\n" ++
  "    WHERE status IN ('NEW', 'PROCESSING');\n" ++
  "\n" ++
  "-- 余额：每个用户一行，首次访问时创建\n" ++
  "CREATE TABLE IF NOT EXISTS balances (\n" ++
  "    balance_id UUID PRIMARY KEY,\n" ++
  "    user_id    VARCHAR(64)    NOT NULL UNIQUE,\n" ++
  "    current    NUMERIC(16, 2) NOT NULL DEFAULT 0,\n" ++
  "    withdrawn  NUMERIC(16, 2) NOT NULL DEFAULT 0,\n" ++
  "    created_at TIMESTAMPTZ    NOT NULL DEFAULT NOW(),\n" ++
  "    updated_at TIMESTAMPTZ    NOT NULL DEFAULT NOW()\n" ++
  ");\n" ++
  "\n" ++
  "-- 提现记录：仅在扣款提交成功时写入\n" ++
  "CREATE TABLE IF NOT EXISTS withdrawals (\n" ++
  "    withdrawal_id UUID PRIMARY KEY,\n" ++
  "    user_id       VARCHAR(64)    NOT NULL,\n" ++
  "    order_number  VARCHAR(32)    NOT NULL,\n" ++
  "    sum           NUMERIC(16, 2) NOT NULL,\n" ++
  "    processed_at  TIMESTAMPTZ    NOT NULL DEFAULT NOW()\n" ++
  ");\n" ++
  "\n" ++
  "CREATE INDEX IF NOT EXISTS idx_withdrawals_user_processed ON withdrawals (user_id, processed_at);\n"

/-- The first migration. -/
def createTables : Migration := ⟨20240601000001, "create accrual tables", createTablesScript⟩

/-- All migrations, in the order of their versions. -/
def all : List Migration := [createTables]

end Migration

end LoyaltyPoints
