import StellarForge.Encoding.Csv
import StellarForge.Frontend.TransactionHistory

/-!
# The CSV export of the transaction history

`serializeTransactionsToCSV`, read by a reader of RFC 4180.

* `writes_csvField`: what a field is written as stands for the guarded field;
* `read_serializeTransactionsToCSV`: **the header and one record of five fields for each item are read,
  each field with an apostrophe before it if and only if a spreadsheet would take it for a formula; and
  no cell begins with such a character.**
-/

namespace StellarForge.Frontend.History

open Encoding

/-- The comma, the double quote, and the two characters of a line break. -/
def csv : Dialect CodeUnit where
  separator := 0x2c
  quote := 0x22
  carriageReturn := 0x0d
  lineFeed := 0x0a
  distinct := by decide

/-- `=`, `+`, `-`, `@`, the tab and the carriage return. -/
def isFormulaStart (u : CodeUnit) : Bool := [0x3d, 0x2b, 0x2d, 0x40, 0x09, 0x0d].contains u

/-- `/^[=+\-@\t\r]/` -/
def startsFormula (field : List CodeUnit) : Bool := field.head?.any isFormulaStart

/-- A leading apostrophe neutralizes a formula. -/
def guardFormula (field : List CodeUnit) : List CodeUnit :=
  if startsFormula field then 0x27 :: field else field

/-- A field in its row. -/
def csvField (field : List CodeUnit) : List CodeUnit :=
  let valStr := guardFormula field
  let escaped := csv.double valStr
  if valStr.any fun u => csv.Special u then csv.quote :: (escaped ++ [csv.quote]) else valStr

/-- The first row. -/
def csvHeaders : List (List CodeUnit) :=
  [units "date", units "type", units "token", units "amount", units "tx hash"]

/-- The fields of an item under the headers. -/
def TransactionHistoryItem.csvFields (tx : TransactionHistoryItem) : List (List CodeUnit) :=
  [tx.date, tx.type, tx.token, tx.amount, tx.hash]

/-- The header, and a row for every transaction. -/
def serializeTransactionsToCSV (transactions : List TransactionHistoryItem) : List CodeUnit :=
  let rows := transactions.map fun tx => tx.csvFields.map csvField
  [csv.lineFeed].intercalate ((csvHeaders :: rows).map [csv.separator].intercalate)

variable {field : List CodeUnit} {transactions : List TransactionHistoryItem}

/-- What a field is written as stands for the guarded field. -/
theorem writes_csvField (field : List CodeUnit) : csv.Writes (guardFormula field) (csvField field) := by
  unfold csvField
  dsimp only
  split_ifs with hspecial
  · exact .inr rfl
  · refine .inl ⟨rfl, fun c hc hbad => hspecial ?_⟩
    rw [List.any_eq_true]
    exact ⟨c, hc, decide_eq_true hbad⟩

/-- A guarded field is no formula. -/
theorem startsFormula_guardFormula (field : List CodeUnit) :
    startsFormula (guardFormula field) = false := by
  unfold guardFormula
  split_ifs with h
  · show isFormulaStart 0x27 = false
    decide
  · exact eq_false_of_ne_true h

/-- A record of more than one field has a separator in its line. -/
theorem isLine_of_two {first second : List CodeUnit} {fields texts : List (List CodeUnit)}
    (h : List.Forall₂ csv.Writes (first :: second :: fields) texts) :
    csv.IsLine (first :: second :: fields) ([csv.separator].intercalate texts) := by
  refine ⟨texts, h, rfl, ?_⟩
  cases h with
  | cons hfirst hrest =>
    cases hrest with
    | cons hsecond hrest =>
      rw [Dialect.intercalate_cons (List.cons_ne_nil _ _)]
      exact List.append_ne_nil_of_right_ne_nil _ (List.cons_ne_nil _ _)

/-- The headers need no quotes. -/
theorem isLine_headers : csv.IsLine csvHeaders ([csv.separator].intercalate csvHeaders) := by
  have hplain : (csvHeaders.all fun header => header.all fun u => !csv.Special u) = true := by decide
  have hwrites : List.Forall₂ csv.Writes csvHeaders csvHeaders := by
    rw [List.forall₂_same]
    intro header hheader
    refine .inl ⟨rfl, fun u hu => ?_⟩
    have hu := List.all_eq_true.mp (List.all_eq_true.mp hplain header hheader) u hu
    simpa using hu
  exact isLine_of_two hwrites

theorem isLine_row (tx : TransactionHistoryItem) : csv.IsLine (tx.csvFields.map guardFormula)
    ([csv.separator].intercalate (tx.csvFields.map csvField)) := by
  have hwrites : List.Forall₂ csv.Writes (tx.csvFields.map guardFormula) (tx.csvFields.map csvField) := by
    rw [List.forall₂_map_left_iff, List.forall₂_map_right_iff, List.forall₂_same]
    exact fun field _ => writes_csvField field
  exact isLine_of_two hwrites

/-- **The export is lossless and inert.** -/
theorem read_serializeTransactionsToCSV (transactions : List TransactionHistoryItem) :
    csv.read (serializeTransactionsToCSV transactions) =
      some (csvHeaders :: transactions.map fun tx => tx.csvFields.map guardFormula) ∧
    ∀ records ∈ csv.read (serializeTransactionsToCSV transactions), ∀ record ∈ records,
      ∀ cell ∈ record, startsFormula cell = false := by
  -- the header line and one line for each row, read back line by line
  have hread : csv.read (serializeTransactionsToCSV transactions) =
      some (csvHeaders :: transactions.map fun tx => tx.csvFields.map guardFormula) := by
    apply Dialect.read_lines
    rw [List.map_cons, List.map_map]
    refine .cons isLine_headers ?_
    rw [List.forall₂_map_left_iff, List.forall₂_map_right_iff, List.forall₂_same]
    exact fun tx _ => isLine_row tx
  refine ⟨hread, fun records hrecords record hrecord cell hcell => ?_⟩
  rw [hread] at hrecords
  obtain rfl := Option.some.inj hrecords
  -- headers start no formula, and every field is guarded
  rcases List.mem_cons.mp hrecord with rfl | hrecord
  · have hheaders : (csvHeaders.all fun header => !startsFormula header) = true := by decide
    have hcell := List.all_eq_true.mp hheaders cell hcell
    simpa using hcell
  · obtain ⟨tx, -, rfl⟩ := List.mem_map.mp hrecord
    obtain ⟨field, -, rfl⟩ := List.mem_map.mp hcell
    exact startsFormula_guardFormula field

end StellarForge.Frontend.History
