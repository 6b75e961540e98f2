import LoyaltyPoints.Balance

/-! # Database: statements

    The statements that the ledger in the database consists of, with the text and the parameters of
    each. Values are only ever passed as parameters. -/

namespace LoyaltyPoints.Database

/-- A statement. -/
inductive Statement where
  /-- Asks whether the server is there. -/
  | probe
  | orderByNumber (number : String)
  | userOrder (user number : String)
  | userOrders (user : String)
  | pendingOrders (after : Option Position) (limit : Int)
  | insertOrder (o : Order)
  | markOrders (ids : List Uuid) (status : OrderStatus)
  /-- Opens the balance of a user, if there is none. -/
  | openBalance (id : Uuid) (user : String)
  | balance (user : String)
  /-- Reads a balance and keeps others from changing it until the transaction ends. -/
  | lockBalance (user : String)
  /-- Settles an order that is pending. -/
  | settleOrder (number user : String) (amount : Decimal)
  | creditBalance (user : String) (amount : Decimal)
  | debitBalance (user : String) (amount : Decimal)
  | insertWithdrawal (id : Uuid) (user number : String) (amount : Decimal)
  | withdrawals (user : String)
deriving DecidableEq

/-- A parameter of a statement. -/
inductive Parameter where
  | null
  | text (s : String)
  | integer (n : Int)
  | uuid (u : Uuid)
  | uuids (us : List Uuid)
  | time (t : Instant)
  /-- Zero is passed without places. -/
  | amount (d : Decimal)

namespace Statement

/-- The columns of an order. -/
def orderColumns : String := "order_id, user_id, number, status, accrual, uploaded_at"

/-- The columns of a balance. -/
def balanceColumns : String :=
  "balance_id, user_id, current, withdrawn, created_at, updated_at"

/-- The columns of a withdrawal. -/
def withdrawalColumns : String := "withdrawal_id, user_id, order_number, sum, processed_at"

/-- The text of a statement. -/
def text : Statement → String
  | .probe => "SELECT 1"
  | .orderByNumber _ => "SELECT " ++ orderColumns ++ " FROM orders WHERE number = $1"
  | .userOrder .. =>
    "SELECT " ++ orderColumns ++ " FROM orders WHERE user_id = $1 AND number = $2"
  | .userOrders _ =>
    "SELECT " ++ orderColumns ++ " FROM orders WHERE user_id = $1 ORDER BY uploaded_at ASC"
  | .pendingOrders .. =>
    "SELECT " ++ orderColumns ++ " FROM orders WHERE status IN ('NEW', 'PROCESSING')" ++
      " AND ($1::timestamptz IS NULL OR (uploaded_at, order_id) > ($1, $2))" ++
      " ORDER BY uploaded_at ASC, order_id ASC LIMIT $3"
  | .insertOrder _ =>
    "INSERT INTO orders (" ++ orderColumns ++ ") VALUES ($1, $2, $3, $4, $5, $6) RETURNING " ++
      orderColumns
  | .markOrders .. =>
    "UPDATE orders SET status = $2 WHERE order_id = ANY($1) AND status IN ('NEW', 'PROCESSING')"
  | .openBalance .. =>
    "INSERT INTO balances (" ++ balanceColumns ++ ") VALUES ($1, $2, 0, 0, NOW(), NOW())" ++
      " ON CONFLICT (user_id) DO NOTHING"
  | .balance _ => "SELECT " ++ balanceColumns ++ " FROM balances WHERE user_id = $1"
  | .lockBalance _ =>
    "SELECT " ++ balanceColumns ++ " FROM balances WHERE user_id = $1 FOR UPDATE"
  | .settleOrder .. =>
    "UPDATE orders SET status = 'PROCESSED', accrual = $3" ++
      " WHERE number = $1 AND user_id = $2 AND status IN ('NEW', 'PROCESSING')" ++
      " RETURNING order_id"
  | .creditBalance .. =>
    "UPDATE balances SET current = current + $2, updated_at = NOW() WHERE user_id = $1"
  | .debitBalance .. =>
    "UPDATE balances SET current = current - $2, withdrawn = withdrawn + $2, updated_at = NOW()" ++
      " WHERE user_id = $1 RETURNING " ++ balanceColumns
  | .insertWithdrawal .. =>
    "INSERT INTO withdrawals (" ++ withdrawalColumns ++ ") VALUES ($1, $2, $3, $4, NOW())" ++
      " RETURNING " ++ withdrawalColumns
  | .withdrawals _ =>
    "SELECT " ++ withdrawalColumns ++
      " FROM withdrawals WHERE user_id = $1 ORDER BY processed_at ASC"

/-- The parameters of a statement, in order. -/
def parameters : Statement → List Parameter
  | .probe => []
  | .orderByNumber number => [.text number]
  | .userOrder user number => [.text user, .text number]
  | .userOrders user => [.text user]
  | .pendingOrders none limit => [.null, .null, .integer limit]
  | .pendingOrders (some p) limit => [.time p.uploadedAt, .uuid p.id, .integer limit]
  | .insertOrder o =>
    [.uuid o.id, .text o.user, .text o.number, .text o.status.toText, .amount o.accrual,
      .time o.uploadedAt]
  | .markOrders ids status => [.uuids ids, .text status.toText]
  | .openBalance id user => [.uuid id, .text user]
  | .balance user => [.text user]
  | .lockBalance user => [.text user]
  | .settleOrder number user amount => [.text number, .text user, .amount amount]
  | .creditBalance user amount => [.text user, .amount amount]
  | .debitBalance user amount => [.text user, .amount amount]
  | .insertWithdrawal id user number amount =>
    [.uuid id, .text user, .text number, .amount amount]
  | .withdrawals user => [.text user]

end Statement

end LoyaltyPoints.Database
