/-
Result columns and text values (`gateway/gateway.go`): the column definition the client is sent for
an upstream column, and the text form of a value.
-/
import Accelerator.Gateway.Params
import Accelerator.Protocol.Response

namespace Accelerator.Gateway

open Strings Upstream
open Protocol (ColumnDefinition defaultCharsetID columnFlagNotNull columnFlagUnsigned columnFlagBinary)

def columnTypeVarChar : UInt8 := 0x0f
def columnTypeBit : UInt8 := 0x10
def columnTypeJSON : UInt8 := 0xf5
def columnTypeNewDecimal : UInt8 := 0xf6
def columnTypeEnum : UInt8 := 0xf7
def columnTypeSet : UInt8 := 0xf8
def columnTypeTinyBlob : UInt8 := 0xf9
def columnTypeMediumBlob : UInt8 := 0xfa
def columnTypeLongBlob : UInt8 := 0xfb
def columnTypeBlob : UInt8 := 0xfc
def columnTypeVarString : UInt8 := 0xfd
def columnTypeString : UInt8 := 0xfe
def columnTypeGeometry : UInt8 := 0xff

/-! ## Column types -/

/-- The cases of `mysqlColumnType`. -/
def columnTypeNames : List (List String × UInt8) :=
  [(["TINYINT", "BOOL", "BOOLEAN"], columnTypeTiny), (["SMALLINT"], columnTypeShort),
   (["MEDIUMINT"], columnTypeInt24), (["INT", "INTEGER"], columnTypeLong), (["BIGINT"], columnTypeLongLong),
   (["FLOAT"], columnTypeFloat), (["DOUBLE", "REAL"], columnTypeDouble),
   (["DECIMAL", "NUMERIC"], columnTypeNewDecimal), (["DATE"], columnTypeDate), (["TIME"], columnTypeTime),
   (["DATETIME"], columnTypeDateTime), (["TIMESTAMP"], columnTypeTimestamp), (["YEAR"], columnTypeYear),
   (["BIT"], columnTypeBit), (["JSON"], columnTypeJSON), (["ENUM"], columnTypeEnum), (["SET"], columnTypeSet),
   (["TINYBLOB"], columnTypeTinyBlob), (["MEDIUMBLOB"], columnTypeMediumBlob),
   (["LONGBLOB"], columnTypeLongBlob), (["TINYTEXT", "TEXT", "MEDIUMTEXT", "LONGTEXT"], columnTypeBlob),
   (["BLOB", "BINARY", "VARBINARY"], columnTypeBlob), (["CHAR"], columnTypeString),
   (["VARCHAR"], columnTypeVarChar), (["GEOMETRY"], columnTypeGeometry)]

def mysqlColumnType (name : Text) : UInt8 :=
  let base := trimSpace (trimPrefix (trimSuffix name (text " UNSIGNED")) (text "UNSIGNED "))
  match columnTypeNames.find? fun (names, _) => names.any (text · == base) with
  | some (_, type) => type
  | none => columnTypeVarString

/-- `uint32(min(n, math.MaxUint32))` of an `int64`. -/
def clampUint32 (n : Int) : UInt32 := .ofNat (min n 4294967295 % 4294967296).toNat

/-- The types whose columns hold bytes rather than text. -/
def isBinaryType (type : UInt8) : Bool :=
  [columnTypeBlob, columnTypeTinyBlob, columnTypeMediumBlob, columnTypeLongBlob, columnTypeGeometry,
   columnTypeBit].contains type

def columnDefinition (name database : Text) (column : ColumnType) : ColumnDefinition :=
  let databaseType := toUpper column.databaseTypeName
  let type := mysqlColumnType databaseType
  let length := match column.length with
    | some n => clampUint32 n
    | none => 1024
  let flags : UInt16 := if column.nullable = some false then columnFlagNotNull else 0
  let flags := if contains databaseType (text "UNSIGNED") then flags ||| columnFlagUnsigned else flags
  let (decimals, length) : UInt8 × UInt32 := match column.decimalSize with
    | none => (0, length)
    | some (precision, scale) =>
      (.ofNat (min scale 255 % 256).toNat,
        if type = columnTypeDecimal ∨ type = columnTypeNewDecimal then
          clampUint32 (precision + 1 + if scale > 0 then 1 else 0)
        else length)
  if !contains databaseType (text "TEXT") && isBinaryType type then
    { schema := toBytes database, name := toBytes name, originalName := toBytes name, charset := 63, length, type,
      flags := flags ||| columnFlagBinary, decimals }
  else
    { schema := toBytes database, name := toBytes name, originalName := toBytes name, charset := defaultCharsetID,
      length, type, flags, decimals }

/-! ## Text values -/

/-- `%04d` for a year. -/
def yearText (y : Int) : Bytes := if y < 0 then lit "-" ++ padded 4 y.natAbs else padded 4 y.natAbs

def dateText (t : Time) : Bytes := yearText t.year ++ lit "-" ++ padded 2 t.month ++ lit "-" ++ padded 2 t.day

def clockText (t : Time) : Bytes :=
  padded 2 t.hour ++ lit ":" ++ padded 2 t.minute ++ lit ":" ++ padded 2 t.second ++ lit "." ++
    padded 6 (t.nanosecond / 1000)

/-- `textValue`: the bytes of a value, `none` for NULL. -/
def textValue (value : Value) (databaseType : Text) : Option Bytes :=
  match value with
  | .null => none
  | .bytes b => some b
  | .string b => some b
  | .time t =>
    let type := toUpper databaseType
    if type = text "DATE" then some (dateText t)
    else if type = text "TIME" then some (clockText t)
    else some (dateText t ++ lit " " ++ clockText t)
  | .bool b => some (if b then lit "1" else lit "0")
  | .int i => some (lit (toString i))
  | .uint n => some (lit (toString n))
  | .float sprint => some sprint

end Accelerator.Gateway
