import OtelFleet.Api.Pipelines
import OtelFleet.Stats

open Store (UUID)
open Stats (CustomerCost)
open Sorting (sortBy)

-- Priced monthly statements. Money is in millionths of the currency.
namespace Billing

section Settings

structure BillingSettings where
  pricePerGiBMicro : Int64
  pricePerMillionItemsMicro : Int64
  currency : String
deriving DecidableEq

def BillingSettings.seeded : BillingSettings where
  pricePerGiBMicro := 0
  pricePerMillionItemsMicro := 0
  currency := "EUR"

structure BillingSettingsUpdate where
  pricePerGiBMicro : Option Int64 := none
  pricePerMillionItemsMicro : Option Int64 := none
  currency : Option String := none

def BillingSettings.update (s : BillingSettings) (upd : BillingSettingsUpdate) : BillingSettings where
  pricePerGiBMicro := upd.pricePerGiBMicro.getD s.pricePerGiBMicro
  pricePerMillionItemsMicro := upd.pricePerMillionItemsMicro.getD s.pricePerMillionItemsMicro
  currency := upd.currency.getD s.currency

def updateBillingSettings (s : BillingSettings) (body : BillingSettingsUpdate) : Except Api.Response BillingSettings :=
  if body.pricePerGiBMicro.any (· < 0) then .error (Api.badRequest "pricePerGibMicro must be >= 0")
  else if body.pricePerMillionItemsMicro.any (· < 0) then
    .error (Api.badRequest "pricePerMillionItemsMicro must be >= 0")
  else if body.currency.any (·.utf8ByteSize ≠ 3) then .error (Api.badRequest "currency must be a 3-letter code")
  else .ok (s.update body)

end Settings

section Statement

def bytesPerGiB : Int64 :=
  1073741824

structure Line where
  customerID : UUID
  name : String
  items : Int64
  bytes : Int64
  bytesCostMicro : Int64
  itemsCostMicro : Int64
  totalMicro : Int64
deriving DecidableEq

structure Statement where
  month : String
  currency : String
  pricePerGiBMicro : Int64
  pricePerMillionItemsMicro : Int64
  lines : List Line
  totalMicro : Int64
deriving DecidableEq

-- The product and the quotient are exact. What does not fit is cut down to its lowest 64 bits.
def mulDiv (price qty divisor : Int64) : Int64 :=
  if price ≤ 0 ∨ qty ≤ 0 ∨ divisor ≤ 0 then 0
  else .ofInt ((price.toInt * qty.toInt).tdiv divisor.toInt)

def price (settings : BillingSettings) (c : CustomerCost) : Line :=
  let bytesCost := mulDiv settings.pricePerGiBMicro c.bytes bytesPerGiB
  let itemsCost := mulDiv settings.pricePerMillionItemsMicro c.items 1000000
  { customerID := c.customerID
    name := c.name
    items := c.items
    bytes := c.bytes
    bytesCostMicro := bytesCost
    itemsCostMicro := itemsCost
    totalMicro := bytesCost + itemsCost }

def lineKey (l : Line) : Lex (Int × String) :=
  toLex (-l.totalMicro.toInt, l.name)

def compute (month : String) (costs : List CustomerCost) (settings : BillingSettings) : Statement :=
  let (lines, total) := costs.foldl (fun (lines, total) c =>
    (lines ++ [price settings c], total + (price settings c).totalMicro)) ([], 0)
  { month := month
    currency := settings.currency
    pricePerGiBMicro := settings.pricePerGiBMicro
    pricePerMillionItemsMicro := settings.pricePerMillionItemsMicro
    lines := sortBy lineKey lines
    totalMicro := total }

end Statement

end Billing
