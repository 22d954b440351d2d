/-
Which hosts the signalling client talks to (`signaling_url`).

The host is what the caller of `connect` gave.  It is an IP address, an IPv6 address in
brackets, or a name whose labels are checked one by one; then the URL crate may say what it
makes of a name, and is not believed unless it is the same name.  The parser of the
addresses is the standard library's.

* `readIp_reads` — an address is made of digits, points and colons, and of few of them;
* `signalingUrl_eq_ok` — which hosts are accepted, and what becomes of them;
* `signaling_hosts` — so a host cannot bring a port, a path, a user or a query with it.
-/
import UnitreeWebrtc.Ingress
import Mathlib.Data.List.TakeWhile

namespace Unitree

/-! ### Addresses -/

inductive IpAddr where
  | v4 (octets : List ℕ)
  | v6 (segments : List ℕ)
deriving DecidableEq

/-- `char::to_digit`, for a radix of at most 36. -/
def toDigit (radix : ℕ) (c : Char) : Option ℕ :=
  let digit : Option ℕ :=
    if c.isDigit then some (c.toNat - 48)
    else if c.isLower then some (c.toNat - 87)
    else if c.isUpper then some (c.toNat - 55)
    else none
  digit.filter (· < radix)

/-- `read_number`, of a number below `bound`. -/
def readNumber (radix maxDigits bound : ℕ) (allowZeroPrefix : Bool) (cs : List Char) :
    Option (ℕ × List Char) :=
  let digits := cs.takeWhile fun c => (toDigit radix c).isSome
  let value := digits.foldl (fun n c => n * radix + (toDigit radix c).getD 0) 0
  if digits.length > maxDigits ∨ digits = [] ∨ value ≥ bound then none
  else if !allowZeroPrefix && cs.head? = some '0' && 1 < digits.length then none
  else some (value, cs.dropWhile fun c => (toDigit radix c).isSome)

/-- `read_separator`: every number but the first comes after a separator. -/
def readSeparator {α : Type} (separator : Char) (index : ℕ)
    (inner : List Char → Option (α × List Char)) (cs : List Char) : Option (α × List Char) :=
  if index = 0 then inner cs
  else
    match cs with
    | c :: rest => if c = separator then inner rest else none
    | [] => none

/-- The octets from this index on. -/
def readOctets (index : ℕ) : ℕ → List Char → Option (List ℕ × List Char)
  | 0, cs => some ([], cs)
  | n + 1, cs =>
    match readSeparator '.' index (readNumber 10 3 256 false) cs with
    | none => none
    | some (octet, rest) =>
      (readOctets (index + 1) n rest).map fun (octets, rest) => (octet :: octets, rest)

def readIpv4 (cs : List Char) : Option (List ℕ × List Char) := readOctets 0 4 cs

/-- `read_groups` from this index on: the groups, and whether they end in an IPv4 address. -/
def readGroups (limit index : ℕ) : ℕ → List Char → (List ℕ × Bool) × List Char
  | 0, cs => (([], false), cs)
  | n + 1, cs =>
    match if index + 1 < limit then readSeparator ':' index readIpv4 cs else none with
    | some (octets, rest) =>
      (([octets.getD 0 0 * 256 + octets.getD 1 0, octets.getD 2 0 * 256 + octets.getD 3 0], true),
        rest)
    | none =>
      match readSeparator ':' index (readNumber 16 4 65536 true) cs with
      | none => (([], false), cs)
      | some (group, rest) =>
        let ((groups, ipv4), rest) := readGroups limit (index + 1) n rest
        ((group :: groups, ipv4), rest)

def readIpv6 (cs : List Char) : Option (List ℕ × List Char) :=
  let ((head, headIpv4), rest) := readGroups 8 0 8 cs
  if head.length = 8 then some (head, rest)
  else if headIpv4 then none
  else
    match rest with
    | ':' :: ':' :: rest =>
      let limit := 8 - (head.length + 1)
      let ((tail, _), rest) := readGroups limit 0 limit rest
      some (head ++ List.replicate (8 - head.length - tail.length) 0 ++ tail, rest)
    | _ => none

/-- `parse_with`: nothing is left over. -/
def parseWith {α : Type} (inner : List Char → Option (α × List Char)) (cs : List Char) : Option α :=
  match inner cs with
  | some (value, []) => some value
  | _ => none

def readIp (cs : List Char) : Option (IpAddr × List Char) :=
  match readIpv4 cs with
  | some (octets, rest) => some (.v4 octets, rest)
  | none => (readIpv6 cs).map fun (segments, rest) => (.v6 segments, rest)

/-! ### URLs -/

inductive UrlHost where
  | ip (address : IpAddr)
  | name (name : String)
deriving DecidableEq

/-- An `http` URL with no user, no query and no fragment, and the port it leads to
(`port_or_known_default`: the URL crate keeps no port 80). -/
structure Url where
  host : UrlHost
  port : ℕ
  path : String
deriving DecidableEq

/-- Four octets or eight segments. -/
def IpAddr.WellFormed : IpAddr → Prop
  | v4 octets => octets.length = 4 ∧ ∀ octet ∈ octets, octet < 256
  | v6 segments => segments.length = 8 ∧ ∀ segment ∈ segments, segment < 65536

def invalidHost : String := "Invalid signaling host: expected only an IP address or hostname"

def validLabel (label : List Char) : Bool :=
  !label.isEmpty && decide (label.length ≤ 63) && label.head?.all Char.isAlphanum &&
    label.getLast?.all Char.isAlphanum && label.all fun c => c.isAlphanum || c = '-'

/-- What is not an address may be a name; `host` may end in a point. -/
def validName (host : List Char) : Bool :=
  let name := if host.getLast? = some '.' then host.dropLast else host
  !(name.isEmpty || decide ((String.ofList name).utf8ByteSize > 253) ||
    (name.all fun c => c.isDigit || c = '.') || !(name.splitOn '.').all validLabel)

/-- The address a host is; `none` is a name. -/
def hostAddress (host : List Char) : PortResult (Option IpAddr) :=
  match host with
  | '[' :: inner =>
    if inner.getLast? = some ']' then
      match parseWith readIpv6 inner.dropLast with
      | some segments => .ok (some (.v6 segments))
      | none => .error invalidHost
    else .error invalidHost
  | host =>
    match parseWith readIp host with
    | some ip => .ok (some ip)
    | none => if validName host then .ok none else .error invalidHost

/-- A path that needs no escape and has no dots. -/
def PlainPath (path : String) : Prop :=
  ∃ rest, path.toList = '/' :: rest ∧ ∀ c ∈ rest, c.isAlphanum ∨ c = '_'

/-- What the URL crate makes of a part that is set on `http://localhost/`; there `set_ip_host`
and `set_port` cannot fail. -/
structure UrlCrate where
  /-- The host after `set_host`. -/
  setHost : String → Option String
  /-- The path after `set_path`. -/
  setPath : String → String
  setPath_plain : ∀ path, PlainPath path → setPath path = path

def signalingUrl (crate : UrlCrate) (host : String) (port : ℕ) (path : String) :
    PortResult Url :=
  if host = "" ∨ host.utf8ByteSize > 254 then .error invalidHost
  else
    match hostAddress host.toList with
    | .error e => .error e
    | .ok (some ip) => .ok { host := .ip ip, port, path := crate.setPath path }
    | .ok none =>
      match crate.setHost host with
      | none => .error invalidHost
      | some parsed =>
        if parsed.toLower = host.toLower then
          .ok { host := .name parsed, port, path := crate.setPath path }
        else .error invalidHost

/-! ### What an address is made of -/

def byteSize (cs : List Char) : ℕ := (cs.map Char.utf8Size).sum

theorem utf8ByteSize_ofList (cs : List Char) : (String.ofList cs).utf8ByteSize = byteSize cs := by
  rw [← String.size_toByteArray, String.toByteArray_ofList]
  induction cs with
  | nil => rfl
  | cons c cs ih =>
    rw [List.utf8Encode_cons, ByteArray.size_append, ih, List.utf8Encode_singleton,
      List.size_toByteArray, String.length_utf8EncodeChar, byteSize, byteSize, List.map_cons,
      List.sum_cons]

theorem byteSize_toList (s : String) : byteSize s.toList = s.utf8ByteSize := by
  rw [← utf8ByteSize_ofList, String.ofList_toList]

/-- At most `n` characters are read, and they are such characters. -/
def Reads (made : Char → Prop) (n : ℕ) (cs rest : List Char) : Prop :=
  ∃ used, cs = used ++ rest ∧ used.length ≤ n ∧ ∀ c ∈ used, made c

theorem Reads.refl (made : Char → Prop) (n : ℕ) (cs : List Char) : Reads made n cs cs :=
  ⟨[], rfl, Nat.zero_le n, by simp⟩

theorem Reads.mono {made : Char → Prop} {n m : ℕ} {cs rest : List Char} (h : Reads made n cs rest)
    (hle : n ≤ m) : Reads made m cs rest := by
  obtain ⟨used, heq, hlen, hused⟩ := h
  exact ⟨used, heq, hlen.trans hle, hused⟩

theorem Reads.trans {made : Char → Prop} {n m : ℕ} {cs rest last : List Char}
    (h : Reads made n cs rest) (h' : Reads made m rest last) : Reads made (n + m) cs last := by
  obtain ⟨used, rfl, hlen, hused⟩ := h
  obtain ⟨more, rfl, hlen', hmore⟩ := h'
  refine ⟨used ++ more, (List.append_assoc ..).symm, ?_, fun c hc => ?_⟩
  · rw [List.length_append]
    omega
  · exact (List.mem_append.mp hc).elim (hused c) (hmore c)

theorem Reads.cons {made : Char → Prop} {n : ℕ} {c : Char} {cs rest : List Char} (hc : made c)
    (h : Reads made n cs rest) : Reads made (n + 1) (c :: cs) rest := by
  obtain ⟨used, rfl, hlen, hused⟩ := h
  exact ⟨c :: used, rfl, Nat.succ_le_succ hlen, List.forall_mem_cons.mpr ⟨hc, hused⟩⟩

def addressChar (c : Char) : Prop := (toDigit 16 c).isSome ∨ c = '.' ∨ c = ':'

theorem toDigit_isSome {radix : ℕ} {c : Char} (hradix : radix ≤ 16)
    (h : (toDigit radix c).isSome) : (toDigit 16 c).isSome := by
  obtain ⟨digit, hdigit⟩ := Option.isSome_iff_exists.mp h
  rw [toDigit, Option.filter_eq_some_iff] at hdigit
  refine Option.isSome_iff_exists.mpr ⟨digit, ?_⟩
  rw [toDigit, Option.filter_eq_some_iff]
  exact ⟨hdigit.1, decide_eq_true ((of_decide_eq_true hdigit.2).trans_le hradix)⟩

theorem isAlphanum_of_toDigit {c : Char} (h : (toDigit 16 c).isSome) : c.isAlphanum := by
  rw [toDigit] at h
  rw [Char.isAlphanum, Char.isAlpha]
  split_ifs at h with hdigit hlower hupper
  · simp [hdigit]
  · simp [hlower]
  · simp [hupper]
  · exact absurd h (by simp)

theorem val_le_of_isAlphanum {c : Char} (h : c.isAlphanum) : c.val ≤ 127 := by
  simp only [Char.isAlphanum, Char.isAlpha, Char.isUpper, Char.isLower, Char.isDigit,
    Bool.or_eq_true, Bool.and_eq_true, decide_eq_true_eq, ge_iff_le, UInt32.le_iff_toNat_le] at h ⊢
  have h9 : UInt32.toNat '9'.val = 57 := rfl
  have hZ : UInt32.toNat 'Z'.val = 90 := rfl
  have hz : UInt32.toNat 'z'.val = 122 := rfl
  have hmax : UInt32.toNat 127 = 127 := rfl
  omega

/-- Such a character is one byte. -/
theorem utf8Size_of_addressChar {c : Char} (h : addressChar c) : c.utf8Size = 1 := by
  refine Char.utf8Size_eq_one_iff.mpr ?_
  rcases h with hdigit | rfl | rfl
  · exact val_le_of_isAlphanum (isAlphanum_of_toDigit hdigit)
  · decide
  · decide

theorem byteSize_of_addressChar {cs : List Char} (h : ∀ c ∈ cs, addressChar c) :
    byteSize cs = cs.length := by
  rw [byteSize, List.map_congr_left fun c hc => utf8Size_of_addressChar (h c hc),
    List.map_const', List.sum_replicate, smul_eq_mul, mul_one]

theorem readNumber_reads {radix maxDigits bound : ℕ} {allowZeroPrefix : Bool}
    (hradix : radix ≤ 16) {cs : List Char} {n : ℕ} {rest : List Char}
    (h : readNumber radix maxDigits bound allowZeroPrefix cs = some (n, rest)) :
    n < bound ∧ Reads addressChar maxDigits cs rest := by
  simp only [readNumber] at h
  split_ifs at h with hbad hzero
  obtain ⟨rfl, rfl⟩ := Prod.mk.inj (Option.some_inj.mp h)
  push Not at hbad
  refine ⟨hbad.2.2, cs.takeWhile fun c => (toDigit radix c).isSome, ?_, hbad.1, fun c hc => ?_⟩
  · exact List.takeWhile_append_dropWhile.symm
  · have hdigit := List.mem_takeWhile_imp (p := fun c => (toDigit radix c).isSome) hc
    exact .inl (toDigit_isSome hradix hdigit)

theorem readSeparator_reads {α : Type} {separator : Char} {index : ℕ}
    {inner : List Char → Option (α × List Char)} {P : α → Prop} {n : ℕ}
    (hsep : addressChar separator)
    (hinner : ∀ {cs a rest}, inner cs = some (a, rest) → P a ∧ Reads addressChar n cs rest)
    {cs : List Char} {a : α} {rest : List Char}
    (h : readSeparator separator index inner cs = some (a, rest)) :
    P a ∧ Reads addressChar (n + 1) cs rest := by
  unfold readSeparator at h
  split at h
  · exact (hinner h).imp_right fun hreads => hreads.mono (Nat.le_succ n)
  split at h
  next c rest' =>
    split at h
    next heq =>
      obtain ⟨ha, hreads⟩ := hinner h
      exact ⟨ha, hreads.cons (heq ▸ hsep)⟩
    next => exact absurd h (by simp)
  next => exact absurd h (by simp)

theorem readOctets_reads (n : ℕ) : ∀ {index : ℕ} {cs : List Char} {octets : List ℕ}
    {rest : List Char}, readOctets index n cs = some (octets, rest) →
      (octets.length = n ∧ ∀ octet ∈ octets, octet < 256) ∧
        Reads addressChar (4 * n) cs rest := by
  induction n with
  | zero =>
    intro index cs octets rest h
    obtain ⟨rfl, rfl⟩ := Prod.mk.inj (Option.some_inj.mp h)
    exact ⟨⟨rfl, by simp⟩, .refl _ _ _⟩
  | succ n ih =>
    intro index cs octets rest h
    rw [readOctets] at h
    split at h
    · exact absurd h (by simp)
    next octet rest' hread =>
      obtain ⟨⟨more, last⟩, hmore, heq⟩ := Option.map_eq_some_iff.mp h
      obtain ⟨rfl, rfl⟩ := Prod.mk.inj heq
      obtain ⟨hlt, hreads⟩ := readSeparator_reads (P := (· < 256)) (.inr (.inl rfl))
        (readNumber_reads (by decide)) hread
      obtain ⟨⟨hlen, hall⟩, hreads'⟩ := ih hmore
      exact ⟨⟨congrArg Nat.succ hlen, List.forall_mem_cons.mpr ⟨hlt, hall⟩⟩,
        (hreads.trans hreads').mono (by omega)⟩

theorem readGroups_reads (limit n : ℕ) : ∀ {index : ℕ} {cs : List Char} {groups : List ℕ}
    {ipv4 : Bool} {rest : List Char}, index + n = limit →
      readGroups limit index n cs = ((groups, ipv4), rest) →
      (groups.length ≤ n ∧ ∀ group ∈ groups, group < 65536) ∧
        Reads addressChar (5 * n + 12) cs rest := by
  induction n with
  | zero =>
    intro index cs groups ipv4 rest _ h
    obtain ⟨hgroups, rfl⟩ := Prod.mk.inj h
    obtain ⟨rfl, -⟩ := Prod.mk.inj hgroups
    exact ⟨⟨le_rfl, by simp⟩, .refl _ _ _⟩
  | succ n ih =>
    intro index cs groups ipv4 rest hlimit h
    rw [readGroups] at h
    split at h
    next octets rest' hread =>
      split_ifs at hread with hindex
      obtain ⟨hgroups, rfl⟩ := Prod.mk.inj h
      obtain ⟨rfl, -⟩ := Prod.mk.inj hgroups
      obtain ⟨⟨hlen, hall⟩, hreads⟩ := readSeparator_reads (.inr (.inr rfl))
        (readOctets_reads 4) hread
      have hoctet : ∀ i, octets.getD i 0 < 256 := by
        intro i
        rcases lt_or_ge i octets.length with hi | hi
        · rw [List.getD_eq_getElem _ _ hi]
          exact hall _ (List.getElem_mem hi)
        · rw [List.getD_eq_default _ _ hi]
          exact Nat.succ_pos _
      refine ⟨⟨?_, ?_⟩, hreads.mono (by omega)⟩
      · rw [List.length_cons, List.length_singleton]
        omega
      · have h0 := hoctet 0
        have h1 := hoctet 1
        have h2 := hoctet 2
        have h3 := hoctet 3
        simp only [List.forall_mem_cons, List.not_mem_nil, false_imp_iff, implies_true, and_true]
        omega
    next =>
      split at h
      next =>
        obtain ⟨hgroups, rfl⟩ := Prod.mk.inj h
        obtain ⟨rfl, -⟩ := Prod.mk.inj hgroups
        exact ⟨⟨Nat.zero_le _, by simp⟩, .refl _ _ _⟩
      next group rest' hread =>
        obtain ⟨hgroups, rfl⟩ := Prod.mk.inj h
        obtain ⟨rfl, -⟩ := Prod.mk.inj hgroups
        obtain ⟨hlt, hreads⟩ := readSeparator_reads (P := (· < 65536)) (.inr (.inr rfl))
          (readNumber_reads le_rfl) hread
        have hlimit' : index + 1 + n = limit := by omega
        obtain ⟨⟨hlen, hall⟩, hreads'⟩ := @ih _ rest' _ _ _ hlimit' rfl
        exact ⟨⟨Nat.succ_le_succ hlen, List.forall_mem_cons.mpr ⟨hlt, hall⟩⟩,
          (hreads.trans hreads').mono (by omega)⟩

theorem readIpv6_reads {cs : List Char} {segments : List ℕ} {rest : List Char}
    (h : readIpv6 cs = some (segments, rest)) :
    IpAddr.WellFormed (.v6 segments) ∧ Reads addressChar 106 cs rest := by
  rw [readIpv6] at h
  rcases hread : readGroups 8 0 8 cs with ⟨⟨head, headIpv4⟩, rest₁⟩
  obtain ⟨⟨hlen, hall⟩, hreads⟩ := readGroups_reads 8 8 rfl hread
  rw [hread] at h
  dsimp only at h
  split at h
  next height =>
    obtain ⟨rfl, rfl⟩ := Prod.mk.inj (Option.some_inj.mp h)
    exact ⟨⟨height, hall⟩, hreads.mono (by decide)⟩
  next hshort =>
    split at h
    · exact absurd h (by simp)
    split at h
    next _ rest₂ =>
      rcases hread' : readGroups (8 - (head.length + 1)) 0 (8 - (head.length + 1)) rest₂ with
        ⟨⟨tail, ipv4⟩, rest₃⟩
      obtain ⟨⟨hlen', hall'⟩, hreads'⟩ := readGroups_reads _ _ (Nat.zero_add _) hread'
      rw [hread'] at h
      obtain ⟨rfl, rfl⟩ := Prod.mk.inj (Option.some_inj.mp h)
      refine ⟨⟨?_, fun segment hmem => ?_⟩, ?_⟩
      · simp only [List.length_append, List.length_replicate]
        omega
      · simp only [List.mem_append, List.mem_replicate] at hmem
        rcases hmem with (hhead | ⟨-, rfl⟩) | htail
        · exact hall segment hhead
        · exact Nat.succ_pos _
        · exact hall' segment htail
      · have hcolons := (hreads'.cons (.inr (.inr rfl))).cons (c := ':') (.inr (.inr rfl))
        exact (hreads.trans hcolons).mono (by omega)
    next => exact absurd h (by simp)

/-- An address is well formed, and made of digits, points and colons. -/
theorem readIp_reads {cs : List Char} {ip : IpAddr} {rest : List Char}
    (h : readIp cs = some (ip, rest)) : ip.WellFormed ∧ Reads addressChar 106 cs rest := by
  rw [readIp] at h
  split at h
  next octets rest' hread =>
    obtain ⟨rfl, rfl⟩ := Prod.mk.inj (Option.some_inj.mp h)
    exact (readOctets_reads 4 hread).imp_right fun hreads => hreads.mono (by decide)
  next =>
    obtain ⟨⟨segments, rest'⟩, hread, heq⟩ := Option.map_eq_some_iff.mp h
    obtain ⟨rfl, rfl⟩ := Prod.mk.inj heq
    exact readIpv6_reads hread

theorem parseWith_reads {α : Type} {inner : List Char → Option (α × List Char)} {P : α → Prop}
    {n : ℕ} (hinner : ∀ {cs a rest}, inner cs = some (a, rest) → P a ∧ Reads addressChar n cs rest)
    {cs : List Char} {a : α} (h : parseWith inner cs = some a) :
    P a ∧ cs.length ≤ n ∧ ∀ c ∈ cs, addressChar c := by
  rw [parseWith] at h
  split at h
  next value hread =>
    obtain ⟨ha, used, hused, hlen, hall⟩ := hinner hread
    rw [List.append_nil] at hused
    subst hused
    exact ⟨Option.some_inj.mp h ▸ ha, hlen, hall⟩
  next => exact absurd h (by simp)

/-! ### Hosts -/

/-- The characters of a host. -/
def hostChar (c : Char) : Prop := c.isAlphanum ∨ c ∈ ['.', ':', '-', '[', ']']

theorem hostChar_of_addressChar {c : Char} (h : addressChar c) : hostChar c := by
  rcases h with hdigit | rfl | rfl
  · exact .inl (isAlphanum_of_toDigit hdigit)
  · exact .inr (by simp)
  · exact .inr (by simp)

theorem validLabel_chars {label : List Char} (h : validLabel label = true) :
    ∀ c ∈ label, c.isAlphanum ∨ c = '-' := by
  intro c hc
  simp only [validLabel, Bool.and_eq_true, List.all_eq_true] at h
  simpa using h.2 c hc

theorem mem_intersperse {α : Type} {separator x : α} :
    ∀ {xs : List α}, x ∈ xs.intersperse separator → x ∈ xs ∨ x = separator
  | [], h => absurd h (by simp)
  | [_], h => .inl h
  | y :: z :: xs, h => by
    rw [List.intersperse_cons_cons, List.mem_cons, List.mem_cons] at h
    rcases h with rfl | rfl | h
    · exact .inl (List.mem_cons_self ..)
    · exact .inr rfl
    · exact (mem_intersperse h).imp_left (List.mem_cons_of_mem y)

/-- A name is short, has no brackets and no colons, and is not made of digits and points. -/
theorem validName_chars {host : List Char} (h : validName host = true) :
    byteSize host ≤ 254 ∧ (∀ c ∈ host, c.isAlphanum ∨ c = '-' ∨ c = '.') ∧
      ∃ c ∈ host, ¬ (c.isDigit ∨ c = '.') := by
  simp only [validName] at h
  set name := if host.getLast? = some '.' then host.dropLast else host with hname
  have hhost : host = name ∨ host = name ++ ['.'] := by
    rw [hname]
    split
    next hlast =>
      obtain ⟨before, hbefore⟩ := List.getLast?_eq_some_iff.mp hlast
      exact .inr (by rw [hbefore, List.dropLast_concat])
    next => exact .inl rfl
  simp only [Bool.not_eq_true', Bool.or_eq_false_iff, Bool.not_eq_false', List.all_eq_true,
    decide_eq_false_iff_not, not_lt, utf8ByteSize_ofList] at h
  obtain ⟨⟨⟨-, hsize⟩, hdigits⟩, hlabels⟩ := h
  have hchars : ∀ c ∈ name, c.isAlphanum ∨ c = '-' ∨ c = '.' := by
    intro c hc
    have hjoined := (name.intercalate_splitOn '.').symm
    rw [hjoined, List.intercalate, List.mem_flatten] at hc
    obtain ⟨part, hpart, hc⟩ := hc
    rcases mem_intersperse hpart with hlabel | hpoint
    · exact (validLabel_chars (hlabels part hlabel) c hc).imp_right .inl
    · rw [hpoint, List.mem_singleton] at hc
      exact .inr (.inr hc)
  obtain ⟨c, hc, hother⟩ := List.all_eq_false.mp hdigits
  have hpoint : byteSize ['.'] = 1 := rfl
  rcases hhost with heq | heq <;> rw [heq]
  · exact ⟨hsize.trans (Nat.le_succ _), hchars, c, hc, by simpa using hother⟩
  · refine ⟨?_, fun c hc => ?_, c, List.mem_append_left _ hc, by simpa using hother⟩
    · rw [byteSize, List.map_append, List.sum_append]
      exact Nat.add_le_add hsize hpoint.le
    · rcases List.mem_append.mp hc with hc | hc
      · exact hchars c hc
      · exact .inr (.inr (List.mem_singleton.mp hc))

/-- The address a host spells. -/
def Spells (host : List Char) (ip : IpAddr) : Prop :=
  parseWith readIp host = some ip ∨ ∃ inner segments, host = '[' :: inner ++ [']'] ∧
    parseWith readIpv6 inner = some segments ∧ ip = .v6 segments

/-- Whom a URL names. -/
def Names (crate : UrlCrate) (host : String) : UrlHost → Prop
  | .ip ip => Spells host.toList ip
  | .name name => parseWith readIp host.toList = none ∧ validName host.toList = true ∧
      crate.setHost host = some name ∧ name.toLower = host.toLower

theorem Spells.spec {host : List Char} {ip : IpAddr} (h : Spells host ip) :
    ip.WellFormed ∧ host ≠ [] ∧ byteSize host ≤ 254 ∧ ∀ c ∈ host, hostChar c := by
  rcases h with hparse | ⟨inner, segments, rfl, hparse, rfl⟩
  · obtain ⟨hwell, hlen, hchars⟩ := parseWith_reads readIp_reads hparse
    refine ⟨hwell, ?_, ?_, fun c hc => hostChar_of_addressChar (hchars c hc)⟩
    · rintro rfl
      have hempty : parseWith readIp [] = none := rfl
      exact absurd (hempty.symm.trans hparse) (by simp)
    · rw [byteSize_of_addressChar hchars]
      omega
  · obtain ⟨hwell, hlen, hchars⟩ := parseWith_reads readIpv6_reads hparse
    refine ⟨hwell, by simp, ?_, fun c hc => ?_⟩
    · have hinner := byteSize_of_addressChar hchars
      have hbrackets : byteSize ('[' :: inner ++ [']']) = 1 + byteSize inner + 1 := by
        rw [byteSize, List.map_append, List.sum_append, List.map_cons, List.sum_cons]
        rfl
      omega
    · simp only [List.mem_cons, List.mem_append, List.not_mem_nil, or_false] at hc
      rcases hc with (rfl | hc) | rfl
      · exact .inr (by simp)
      · exact hostChar_of_addressChar (hchars c hc)
      · exact .inr (by simp)

theorem hostAddress_eq_ip {host : List Char} {ip : IpAddr} :
    hostAddress host = .ok (some ip) ↔ Spells host ip := by
  unfold hostAddress
  split
  next inner =>
    constructor
    · intro h
      split_ifs at h with hlast
      obtain ⟨before, rfl⟩ := List.getLast?_eq_some_iff.mp hlast
      rw [List.dropLast_concat] at h
      split at h
      next segments hparse =>
        obtain rfl := Option.some_inj.mp (Except.ok.inj h)
        exact .inr ⟨before, segments, rfl, hparse, rfl⟩
      next => exact absurd h (by simp)
    · rintro (hparse | ⟨before, segments, heq, hparse, rfl⟩)
      · have hbracket := (parseWith_reads readIp_reads hparse).2.2 '[' (List.mem_cons_self ..)
        exact absurd hbracket (by simp [addressChar, toDigit])
      · obtain rfl : inner = before ++ [']'] := (List.cons.inj heq).2
        rw [if_pos List.getLast?_concat, List.dropLast_concat, hparse]
  next hbracket =>
    constructor
    · intro h
      split at h
      next ip' hparse => exact .inl (hparse.trans (Except.ok.inj h))
      next =>
        split at h
        · exact absurd (Except.ok.inj h) (by simp)
        · exact absurd h (by simp)
    · rintro (hparse | ⟨before, segments, heq, -⟩)
      · rw [hparse]
      · exact absurd heq (hbracket _)

theorem hostAddress_eq_name {host : List Char} :
    hostAddress host = .ok none ↔ parseWith readIp host = none ∧ validName host = true := by
  unfold hostAddress
  split
  next inner =>
    constructor
    · intro h
      split at h
      · split at h
        · exact absurd (Except.ok.inj h) (by simp)
        · exact absurd h (by simp)
      · exact absurd h (by simp)
    · rintro ⟨-, hvalid⟩
      have hbracket := (validName_chars hvalid).2.1 '[' (List.mem_cons_self ..)
      exact absurd hbracket (by decide)
  next =>
    rcases parseWith readIp host with _ | ip
    · simp
    · simp

theorem hostAddress_error {host : List Char} {e : String} (h : hostAddress host = .error e) :
    e = invalidHost := by
  unfold hostAddress at h
  split at h
  · split at h
    · split at h
      · exact absurd h (by simp)
      · exact (Except.error.inj h).symm
    · exact (Except.error.inj h).symm
  · split at h
    · exact absurd h (by simp)
    split at h
    · exact absurd h (by simp)
    · exact (Except.error.inj h).symm

section

variable {crate : UrlCrate} {host : String} {port : ℕ} {path : String}

/-- Only an empty host or a long one is refused for its size. -/
theorem Names.size {named : UrlHost} (h : Names crate host named) :
    ¬ (host = "" ∨ host.utf8ByteSize > 254) := by
  have hsize : host.toList ≠ [] ∧ byteSize host.toList ≤ 254 := by
    cases named with
    | ip ip => exact ⟨(Spells.spec h).2.1, (Spells.spec h).2.2.1⟩
    | name name =>
      obtain ⟨hsize, -, c, hc, -⟩ := validName_chars h.2.1
      exact ⟨List.ne_nil_of_mem hc, hsize⟩
  rintro (rfl | hlong)
  · exact hsize.1 rfl
  · rw [byteSize_toList] at hsize
    omega

theorem Names.chars {named : UrlHost} (h : Names crate host named) :
    ∀ c ∈ host.toList, hostChar c := by
  cases named with
  | ip ip => exact (Spells.spec h).2.2.2
  | name name =>
    intro c hc
    rcases (validName_chars h.2.1).2.1 c hc with halnum | rfl | rfl
    · exact .inl halnum
    · exact .inr (by simp)
    · exact .inr (by simp)

theorem signalingUrl_eq_ok {url : Url} : signalingUrl crate host port path = .ok url ↔
    url.port = port ∧ url.path = crate.setPath path ∧ Names crate host url.host := by
  constructor
  · intro h
    rw [signalingUrl] at h
    split at h
    · exact absurd h (by simp)
    split at h
    · exact absurd h (by simp)
    next ip haddress =>
      rw [← Except.ok.inj h]
      exact ⟨rfl, rfl, hostAddress_eq_ip.mp haddress⟩
    next hname =>
      split at h
      · exact absurd h (by simp)
      split at h
      next parsed hparsed hsame =>
        rw [← Except.ok.inj h]
        obtain ⟨hip, hvalid⟩ := hostAddress_eq_name.mp hname
        exact ⟨rfl, rfl, hip, hvalid, hparsed, hsame⟩
      next => exact absurd h (by simp)
  · obtain ⟨named, urlPort, urlPath⟩ := url
    rintro ⟨rfl, rfl, hnames⟩
    rw [signalingUrl, if_neg hnames.size]
    cases named with
    | ip ip => rw [hostAddress_eq_ip.mpr hnames]
    | name name =>
      obtain ⟨hip, hvalid, hparsed, hsame⟩ := hnames
      rw [hostAddress_eq_name.mpr ⟨hip, hvalid⟩, hparsed]
      exact if_pos hsame

theorem signalingUrl_error {e : String} (h : signalingUrl crate host port path = .error e) :
    e = invalidHost := by
  rw [signalingUrl] at h
  split at h
  · exact (Except.error.inj h).symm
  split at h
  next haddress =>
    rw [← Except.error.inj h]
    exact hostAddress_error haddress
  next => exact absurd h (by simp)
  next =>
    split at h
    · exact (Except.error.inj h).symm
    split at h
    · exact absurd h (by simp)
    · exact (Except.error.inj h).symm

theorem signalingUrl_path {url : Url} (h : signalingUrl crate host port path = .ok url)
    (hplain : PlainPath path) : url.path = path :=
  (signalingUrl_eq_ok.mp h).2.1.trans (crate.setPath_plain path hplain)

end

/-- **A host is only a host.**  What `signaling_url` accepts is an address, an IPv6 address in
brackets, or a valid name that the URL crate leaves as it is, all of them and no others; the
URL names that address, four octets or eight segments, or that very name, and has the port
that was asked for and the path that the crate makes of the one that was asked for, the very
path when it needs no escape.  A host is made of letters, digits, points, colons, hyphens and
brackets, so that none brings a port, a path, a user, a query or a zone with it, and digits
and points are an address or nothing.  Every refusal has the same text. -/
theorem signaling_hosts (crate : UrlCrate) (host : String) (port : ℕ) (path : String) :
    (∀ url, signalingUrl crate host port path = .ok url ↔
      url.port = port ∧ url.path = crate.setPath path ∧ Names crate host url.host) ∧
    (∀ url, signalingUrl crate host port path = .ok url →
      (PlainPath path → url.path = path) ∧ (∀ ip, url.host = .ip ip → ip.WellFormed) ∧
      (∀ c ∈ host.toList, hostChar c) ∧
      ((∀ c ∈ host.toList, c.isDigit ∨ c = '.') → ∃ ip, url.host = .ip ip)) ∧
    ∀ e, signalingUrl crate host port path = .error e → e = invalidHost := by
  refine ⟨fun url => signalingUrl_eq_ok, fun url h => ?_, fun e h => signalingUrl_error h⟩
  obtain ⟨-, -, hnames⟩ := signalingUrl_eq_ok.mp h
  refine ⟨signalingUrl_path h, fun ip hip => ?_, hnames.chars, fun hdigits => ?_⟩
  · rw [hip] at hnames
    exact (Spells.spec hnames).1
  · rcases hhost : url.host with ip | name
    · exact ⟨ip, rfl⟩
    · rw [hhost] at hnames
      obtain ⟨-, -, c, hc, hother⟩ := validName_chars hnames.2.1
      exact absurd (hdigits c hc) hother

end Unitree
