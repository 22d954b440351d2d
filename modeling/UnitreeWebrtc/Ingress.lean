/-
Ingress admission: what a peer may make the process parse.

The lexer and grammar of JSON are `serde_json`'s, outside this repository:
they enter as one function `Serde` from a byte string to the syntax tree of
the document it spells, with objects as the ordered key/value lists they are
written as.  What the repository adds is modelled on that tree: the visitor
that charges every value and key before building it, refuses containers below
the sixty-fourth level, and keeps the last value of a repeated key.

`framing::parse`, which reads a header with the same function, is here too.
-/
import UnitreeWebrtc.Json

namespace Unitree

/-- A JSON document as written: duplicate keys are still there. -/
inductive Syntax where
  | null
  | bool (b : Bool)
  | number (n : Number)
  | string (s : String)
  | array (values : List Syntax)
  | object (members : List (String × Syntax))

/-- `serde_json`'s reading of a byte string: the tree of the one document it
spells, or nothing. -/
abbrev Serde := List UInt8 → Option Syntax

abbrev PortResult := Except String

def maxTextBytes : ℕ := 1024 * 1024
def maxBinaryBytes : ℕ := 1152 * 1024
def maxBinaryHeaderBytes : ℕ := 64 * 1024
def maxBinaryExpansionBytes : ℕ := 1024 * 1024
def maxJsonNodes : ℕ := 65536
def maxJsonDepth : ℕ := 64

/-! ### The admission visitor

`deserialize t depth remaining` is `JsonAdmission { remaining_nodes, depth }` driven
over `t`: the value built and the nodes left, or `none` when a budget ran out. -/

mutual

def deserialize : Syntax → ℕ → ℕ → Option (Value × ℕ)
  | _, _, 0 => none
  | .null, _, n + 1 => some (.null, n)
  | .bool b, _, n + 1 => some (.bool b, n)
  | .number x, _, n + 1 => some (.number x, n)
  | .string s, _, n + 1 => some (.string s, n)
  | .array ts, depth, n + 1 =>
    if depth ≥ maxJsonDepth then none
    else (visitSeq ts (depth + 1) n).map fun (vs, m) => (.array vs, m)
  | .object ms, depth, n + 1 =>
    if depth ≥ maxJsonDepth then none
    else (visitMap ms [] (depth + 1) n).map fun (es, m) => (.object es, m)

def visitSeq : List Syntax → ℕ → ℕ → Option (List Value × ℕ)
  | [], _, n => some ([], n)
  | t :: ts, depth, n =>
    (deserialize t depth n).bind fun (v, m) =>
      (visitSeq ts depth m).map fun (vs, k) => (v :: vs, k)

/-- The key is charged before its value; `values.insert` keeps the last value
of a repeated key. -/
def visitMap : List (String × Syntax) → Entries → ℕ → ℕ → Option (Entries × ℕ)
  | [], acc, _, n => some (acc, n)
  | (_, _) :: _, _, _, 0 => none
  | (k, t) :: ms, acc, depth, n + 1 =>
    (deserialize t depth n).bind fun (v, m) => visitMap ms (Entries.insert k v acc) depth m

end

def parseJson (serde : Serde) (data : List UInt8) : PortResult Value :=
  if data.length > maxTextBytes then .error "Ingress JSON exceeds 1 MiB"
  else
    match (serde data).bind fun t => deserialize t 0 maxJsonNodes with
    | some (v, _) => .ok v
    | none => .error "Invalid ingress JSON or resource budget exceeded"

/-! ### Messages -/

/-- The bytes of a text, `str::as_bytes`. -/
def asBytes (s : String) : List UInt8 := s.toUTF8.data.toList

inductive DcMessage where
  | text (text : String)
  | binary (bytes : List UInt8)
  | transportFault (error : String)
deriving DecidableEq

/-- A message with the session generation its peer handler captured. -/
structure IngressMessage where
  generation : ℕ
  payload : DcMessage
deriving DecidableEq

/-! ### Binary framing -/

inductive BinaryFrame where
  | normal
  | lidar
deriving DecidableEq

/-- Little-endian bytes as a number. -/
def leBytes : List UInt8 → ℕ
  | [] => 0
  | b :: bs => b.toNat + 256 * leBytes bs

/-- `buffer.get(start..stop)`. -/
def slice (buffer : List UInt8) (start stop : ℕ) : Option (List UInt8) :=
  if start ≤ stop ∧ stop ≤ buffer.length then some ((buffer.drop start).take (stop - start))
  else none

/-- Where the JSON header of a frame starts and how long it is. -/
def headerSpan (buffer prefix4 : List UInt8) : PortResult (BinaryFrame × ℕ × ℕ) :=
  if prefix4 = [2, 0, 0, 0] then
    match slice buffer 4 8 with
    | none => .error "Missing LiDAR frame length"
    | some bytes => .ok (.lidar, 12, leBytes bytes)
  else .ok (.normal, 4, leBytes (prefix4.take 2))

def BinaryFrame.debug : BinaryFrame → String
  | normal => "Normal"
  | lidar => "Lidar"

namespace Framing

/-- `framing::parse`: the frame's layout, its JSON header and its body. -/
def parse (serde : Serde) (buffer : List UInt8) :
    PortResult (BinaryFrame × Value × List UInt8) :=
  match slice buffer 0 4 with
  | none => .error "Binary frame is too short"
  | some prefix4 =>
    match headerSpan buffer prefix4 with
    | .error e => .error e
    | .ok (frame, start, length) =>
      if length > maxBinaryHeaderBytes then .error "Binary JSON header exceeds 64 KiB"
      else
        match slice buffer start (start + length) with
        | none => .error "Binary JSON header exceeds frame length"
        | some json =>
          match parseJson serde json with
          | .error e => .error e
          | .ok header =>
            if header.asObject.isNone then
              .error (frame.debug ++ " binary JSON header must be an object")
            else .ok (frame, header, buffer.drop (start + length))

/-- The header of an accepted frame is an object. -/
theorem parse_object {serde : Serde} {buffer body : List UInt8} {frame : BinaryFrame}
    {header : Value} (h : parse serde buffer = .ok (frame, header, body)) :
    header.asObject.isSome := by
  rw [parse] at h
  split at h
  · exact absurd h (by simp)
  split at h
  · exact absurd h (by simp)
  split at h
  · exact absurd h (by simp)
  split at h
  · exact absurd h (by simp)
  split at h
  · exact absurd h (by simp)
  split at h
  · exact absurd h (by simp)
  next hobj =>
    simp only [Except.ok.injEq, Prod.mk.injEq] at h
    rw [← h.2.1, Option.isSome_iff_ne_none]
    intro hnone
    exact hobj (by rw [hnone]; rfl)

/-- A normal frame: a two-byte length, two more bytes, the header and the body. -/
theorem parse_normal {serde : Serde} {b₀ b₁ b₂ b₃ : UInt8} {json body : List UInt8}
    {entries : Entries} (hlength : leBytes [b₀, b₁] = json.length)
    (hnormal : [b₀, b₁, b₂, b₃] ≠ [2, 0, 0, 0])
    (hjson : parseJson serde json = .ok (.object entries)) :
    parse serde ([b₀, b₁, b₂, b₃] ++ json ++ body) = .ok (.normal, .object entries, body) := by
  have hpre : slice ([b₀, b₁, b₂, b₃] ++ json ++ body) 0 4 = some [b₀, b₁, b₂, b₃] := by
    rw [slice, if_pos (by simp)]
    rfl
  have hspan : headerSpan ([b₀, b₁, b₂, b₃] ++ json ++ body) [b₀, b₁, b₂, b₃]
      = .ok (.normal, 4, json.length) := by
    rw [headerSpan, if_neg hnormal, ← hlength]
    rfl
  have hshort : ¬ json.length > maxBinaryHeaderBytes := by
    have h₀ : b₀.toNat < 256 := b₀.toNat_lt
    have h₁ : b₁.toNat < 256 := b₁.toNat_lt
    rw [← hlength]
    simp only [leBytes, maxBinaryHeaderBytes]
    omega
  have hheader : slice ([b₀, b₁, b₂, b₃] ++ json ++ body) 4 (4 + json.length) = some json := by
    rw [slice, if_pos (by simp; omega)]
    simp
  have hbody : ([b₀, b₁, b₂, b₃] ++ json ++ body).drop (4 + json.length) = body :=
    List.drop_left' (by simp; omega)
  rw [parse]
  simp only [hpre, hspan, if_neg hshort, hheader, hjson]
  rw [if_neg (by simp [Value.asObject]), hbody]

end Framing

end Unitree
