import ThermalLabel.Label.Basic
import ThermalLabel.Json.Literal
import ThermalLabel.Schema.Record
import ThermalLabel.Schema.Scalar
/-!
# Bindable data sources

The catalogue of data sources that the editor offers. Only the body, which repeats, sees those of
a row; a barcode is offered the few that fit its kind.
-/

namespace ThermalLabel

open Schema

/-- A data source with the name it is offered under. -/
structure DataSource where
  id : Text
  name : Text
deriving DecidableEq

namespace DataSource

def ofMembers (members : List (String × Json)) : Checked DataSource :=
  DataSource.mk <$> required (.plain "id") readText members
    <*> required (.plain "name") readText members

def read (origin : Origin) : Json → Checked DataSource := readRecord origin "DataSource" ofMembers

def toJson (s : DataSource) : Json := .obj [("id", .str s.id), ("name", .str s.name)]

/-- Sources with one value for the whole label. -/
def shared : List DataSource :=
  [⟨"Tenant.Name", "Company Name"⟩,
    ⟨"Tenant.Address", "Company Address"⟩,
    ⟨"Tenant.TaxNumber", "Company Tax Number"⟩,
    ⟨"Customer.Name", "Customer Name"⟩,
    ⟨"Customer.TaxNumber", "Customer Tax Number"⟩,
    ⟨"DocNumber", "Document Number"⟩,
    ⟨"Invoice.Date", "Invoice Date"⟩,
    ⟨"Invoice.Subtotal", "Subtotal"⟩,
    ⟨"Invoice.Tax", "Tax Amount"⟩,
    ⟨"Invoice.Total", "Grand Total"⟩,
    ⟨"ETTN", "ETTN (Invoice UUID)"⟩,
    ⟨"GibInfo", "GIB QR Payload"⟩]

/-- Sources with a value for each body row. -/
def ofRow : List DataSource :=
  [⟨"Line.ProductCode", "Product Code"⟩,
    ⟨"Line.ProductName", "Product Name"⟩,
    ⟨"Line.Quantity", "Quantity"⟩,
    ⟨"Line.UnitPrice", "Unit Price"⟩,
    ⟨"Line.Total", "Line Total"⟩,
    ⟨"Product.Sku", "Product SKU"⟩,
    ⟨"Barcode", "Product Barcode"⟩]

/-- What fits a barcode of a kind; one without a kind is linear. -/
def fitsBarcode (kind : Option BarcodeKind) (s : DataSource) : Bool :=
  match kind with
  | some .qr => s.id == "GibInfo"
  | _ => (["Barcode", "Product.Sku", "DocNumber", "ETTN"] : List Text).contains s.id

/-- The sources offered to an element of a section. -/
def offered (place : SectionName) (kind : Option ElementKind) (barcode : Option BarcodeKind) :
    List DataSource :=
  let sources := if place = .body then shared ++ ofRow else shared
  match kind with
  | some .barcode => sources.filter (fitsBarcode barcode)
  | _ => sources

end DataSource

/-- A name that is not among those of its kind. -/
structure UnknownName where
  /-- What was given, as a literal. -/
  given : String
  /-- What was asked for. -/
  kind : String
deriving DecidableEq, Repr

def UnknownName.message (e : UnknownName) : String :=
  e.given ++ " is not a valid " ++ e.kind

def nameOf {α : Type} (kind : String) (names : List (String × α)) (v : Json) :
    Except UnknownName α :=
  match v with
  | .str s =>
    match s.characters?.bind fun name => names.lookup name with
    | some a => .ok a
    | none => .error ⟨v.literal, kind⟩
  | _ => .error ⟨v.literal, kind⟩

def SectionName.ofJson : Json → Except UnknownName SectionName :=
  nameOf "SectionName" SectionName.names

def ElementKind.ofJson : Json → Except UnknownName ElementKind :=
  nameOf "ElementType" ElementKind.names

def BarcodeKind.ofJson : Json → Except UnknownName BarcodeKind :=
  nameOf "BarcodeType" BarcodeKind.names

/-- The sources offered for names as a client gives them. The kind of element is looked at only if
it is there, the kind of barcode only for a barcode. -/
def DataSource.offeredFor (place kind barcode : Json) : Except UnknownName (List DataSource) := do
  let name ← SectionName.ofJson place
  if kind.isNull then
    return offered name none none
  else
    match ← ElementKind.ofJson kind with
    | .barcode =>
      if barcode.isNull then
        return offered name (some .barcode) none
      else
        return offered name (some .barcode) (some (← BarcodeKind.ofJson barcode))
    | other => return offered name (some other) none

end ThermalLabel
