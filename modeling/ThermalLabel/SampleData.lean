import ThermalLabel.Label.Basic
/-!
# Sample data

A bound element shows a data source. On a label for the printer its name stands between brackets;
on a sample label it is looked up, first in the record of the row, then among the values that are
the same for the whole label.
-/

namespace ThermalLabel

abbrev DataRecord := List (String × String)

/-- The records of body rows, and the values shared by the whole label. -/
structure SampleData where
  rows : List DataRecord
  shared : DataRecord
deriving DecidableEq

inductive Mode where
  /-- For the printer, which fills in the data sources. -/
  | template
  /-- With sample values, to be looked at. -/
  | sample
deriving DecidableEq, Repr

/-- How many rows the body is printed with: for the printer it appears once. -/
def Mode.bodyRows (mode : Mode) (requested : Int) : Int :=
  match mode with
  | sample => requested
  | template => 1

/-- A data source to be filled in later. -/
def placeholder (source : Text) : Text := "[" ++ source ++ "]"

/-- The value of a data source in a record. Names of values are characters. -/
def DataRecord.value? (record : DataRecord) (source : Text) : Option String :=
  source.characters?.bind fun name => record.lookup name

namespace SampleData

/-- The record of a body row. Rows beyond the table start over, and rows before it end it. -/
def row? (data : SampleData) (index : Int) : Option DataRecord :=
  data.rows[(index % (data.rows.length : Int)).toNat]?

/-- The record that a body row is compiled with. -/
def recordOf (data : SampleData) (mode : Mode) (index : Int) : Option DataRecord :=
  match mode with
  | .sample => data.row? index
  | .template => none

def resolve (data : SampleData) (source : Text) (mode : Mode) (row : Option DataRecord) : Text :=
  match mode with
  | .template => placeholder source
  | .sample =>
    match row.bind (DataRecord.value? · source) with
    | some value => value
    | none =>
      match data.shared.value? source with
      | some value => value
      | none => placeholder source

/-- The data source that an element is bound to. -/
def boundSource? (e : Element) : Option Text :=
  if e.isDynamic then nonempty? e.dataSource else none

/-- The text that an element shows: the value of its data source, or else its own content. -/
def contentOf (data : SampleData) (e : Element) (mode : Mode) (row : Option DataRecord) : Text :=
  match boundSource? e with
  | some source => data.resolve source mode row
  | none => e.content.getD ""

/-- The sample records of a small invoice. -/
def sampleRows : List DataRecord :=
  [[("Line.ProductCode", "P-101"),
    ("Line.ProductName", "Steel Widget"),
    ("Line.Quantity", "2"),
    ("Line.UnitPrice", "45.00"),
    ("Line.Total", "90.00"),
    ("Product.Sku", "SKU-0101"),
    ("Barcode", "8690000001011")],
   [("Line.ProductCode", "P-102"),
    ("Line.ProductName", "Brass Gadget"),
    ("Line.Quantity", "2"),
    ("Line.UnitPrice", "23.91"),
    ("Line.Total", "47.82"),
    ("Product.Sku", "SKU-0102"),
    ("Barcode", "8690000001028")],
   [("Line.ProductCode", "P-103"),
    ("Line.ProductName", "USB-C Cable 1m"),
    ("Line.Quantity", "3"),
    ("Line.UnitPrice", "8.00"),
    ("Line.Total", "24.00"),
    ("Product.Sku", "SKU-0103"),
    ("Barcode", "8690000001035")]]

def sampleShared : DataRecord :=
  [("Tenant.Name", "Acme Trading Ltd."),
    ("Tenant.Address", "Istiklal Cd. 12, Istanbul"),
    ("Tenant.TaxNumber", "1234567890"),
    ("Customer.Name", "Jane Doe"),
    ("Customer.TaxNumber", "9876543210"),
    ("DocNumber", "INV2024000000123"),
    ("Invoice.Date", "2024-05-14"),
    ("Invoice.Subtotal", "161.82"),
    ("Invoice.Tax", "29.13"),
    ("Invoice.Total", "190.95"),
    ("ETTN", "3f2b6c1e-8d4a-4e7b-9a51-0c6d2e9f7a10"),
    ("GibInfo",
      "https://earsivportal.efatura.gov.tr/?ettn=3f2b6c1e-8d4a-4e7b-9a51-0c6d2e9f7a10")]

/-- The sample data that is used unless other data is given. -/
def standard : SampleData := ⟨sampleRows, sampleShared⟩

end SampleData
end ThermalLabel
