import Mathlib.Logic.Function.Basic
import TokoApi.Lib.Threads

/-!
# The schema that the migrations produce

What the migrations leave of `payments` and `shipments`, as far as an INSERT depends on
it: a column that the statement leaves out takes its default, or NULL, and NULL violates
NOT NULL. Types, keys and indexes are left out. Migrations 8, 9, 10 and 18 are the ones
that name the two tables. The last of them adds `tenant_id` without a default, fills it
in the rows that are there, and makes it NOT NULL.
-/
namespace TokoApi.Db

open Lib.Threads

structure Column where
  name : String
  notNull : Bool
  hasDefault : Bool
  deriving DecidableEq

namespace Column

def nullable (name : String) : Column := ⟨name, false, false⟩

def required (name : String) : Column := ⟨name, true, false⟩

/-- NOT NULL with a default, as a primary key has one. -/
def defaulted (name : String) : Column := ⟨name, true, true⟩

/-- An INSERT that does not name the column puts NULL where it must not be. -/
def leavesNull (c : Column) (given : List String) : Bool :=
  c.notNull && !c.hasDefault && c.name ∉ given

end Column

abbrev Schema := String → List Column

inductive Ddl where
  | createTable (table : String) (columns : List Column)
  | addColumn (table : String) (column : Column)
  | setNotNull (table column : String)

namespace Schema

def empty : Schema := fun _ => []

/-- ADD COLUMN comes with IF NOT EXISTS. -/
def apply (d : Schema) : Ddl → Schema
  | .createTable table columns => Function.update d table columns
  | .addColumn table column =>
    if column.name ∈ (d table).map Column.name then d
    else Function.update d table (d table ++ [column])
  | .setNotNull table column =>
    Function.update d table
      ((d table).map fun c => if c.name = column then { c with notNull := true } else c)

/-- The first column whose constraint an INSERT with these columns violates. -/
def missing (d : Schema) (table : String) (given : List String) : Option String :=
  ((d table).find? fun c => c.leavesNull given).map Column.name

end Schema

def notNullViolation (column table : String) : String :=
  "ERROR: null value in column \"" ++ column ++ "\" of relation \"" ++ table ++
    "\" violates not-null constraint (SQLSTATE 23502)"

/-- How the database answers an INSERT, if nothing fails but a constraint. -/
def Schema.answer (d : Schema) (table : String) (given : List String) : Call :=
  match d.missing table given with
  | none => .ok
  | some column => .fail (notNullViolation column table)

/-! ## The migrations -/

open Column

/-- 000008_cart_checkout. -/
def cartCheckout : List Ddl :=
  [.createTable "payments" [defaulted "id", required "order_id", nullable "provider",
      defaulted "status", nullable "provider_payload", defaulted "created_at",
      defaulted "updated_at"],
    .createTable "shipments" [defaulted "id", required "order_id", defaulted "status",
      nullable "courier", nullable "tracking_number", ⟨"history", false, true⟩]]

/-- 000009_payments_enhance. -/
def paymentsEnhance : List Ddl :=
  ["channel", "intent_token", "redirect_url", "amount", "expires_at"].map fun name =>
    .addColumn "payments" (nullable name)

/-- 000010_shipping_tracking. -/
def shippingTracking : List Ddl :=
  [nullable "courier", nullable "tracking_number", ⟨"last_status", false, true⟩,
    nullable "last_event_at"].map (.addColumn "shipments")

/-- 000018_tenancy_fk_extend. -/
def tenancyExtend : List Ddl :=
  [.addColumn "payments" (nullable "tenant_id"), .addColumn "shipments" (nullable "tenant_id"),
    .setNotNull "payments" "tenant_id", .setNotNull "shipments" "tenant_id"]

/-- The schema up to the tenancy migrations. -/
def untenanted : Schema := (cartCheckout ++ paymentsEnhance ++ shippingTracking).foldl .apply .empty

def migrated : Schema := tenancyExtend.foldl .apply untenanted

/-! ## The statements -/

def createPaymentColumns : List String :=
  ["order_id", "provider", "channel", "status", "provider_payload", "intent_token", "redirect_url",
    "amount", "created_at", "updated_at", "expires_at"]

def createShipmentColumns : List String :=
  ["order_id", "status", "courier", "tracking_number", "history", "last_status", "last_event_at"]

theorem migrated_payments : migrated.missing "payments" createPaymentColumns = some "tenant_id" := by
  decide +kernel

theorem migrated_shipments :
    migrated.missing "shipments" createShipmentColumns = some "tenant_id" := by
  decide +kernel

end TokoApi.Db
