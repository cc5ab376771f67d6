import Camouflage.Config.Basic
import Camouflage.Json.Reader

/-!
# Configurations from JSON

A configuration is an object with named fields, or an array of the fields in their order. Unknown
fields are skipped, a field set twice or missing is a fault, and fields at the end may be left out
if they have a default. The prefix is a variant in snake case.
-/

namespace Camouflage

open Json Json.Reader

def Json.Reader.text : Reader String :=
  string "a string"

def Json.Reader.size : Reader Nat :=
  count "usize"

def PrefixConfig.variants : List String := ["none", "generator", "hex", "dns_over_tcp"]

/-- The prefix that a dialer writes. -/
def PrefixConfig.reader : Reader PrefixConfig :=
  variant variants (fun name => if name = "none" then some .nothing else none) fun
    | "generator" => return .generator (← text)
    | "hex" => return .hex (← text)
    | "dns_over_tcp" => return .dnsOverTcp (← size)
    | _ => do unit; return .nothing

def AbsorbConfig.variants : List String := ["none", "exact", "length", "dns_over_tcp"]

/-- The prefix that a listener strips. -/
def AbsorbConfig.reader : Reader AbsorbConfig :=
  variant variants (fun name => if name = "none" then some .nothing else none) fun
    | "exact" => return .exactly (← text)
    | "length" => return .anyBytes (← size)
    | "dns_over_tcp" => return .dnsOverTcp (← size)
    | _ => do unit; return .nothing

/-- An element of an array that must not be missing; `index` elements stand before it. -/
def Json.Reader.elementAt {α : Type} (whole : String) (index : Nat) (read : Reader α) :
    Reader α := do
  match ← element? (index = 0) read with
  | some a => return a
  | none => fail (.data (.invalidLength index whole))

/-- An element of an array that may be left out. -/
def Json.Reader.elementOr {α : Type} (absent : α) (read : Reader α) : Reader α := do
  return (← element? false read).getD absent

namespace DialerConfig

structure Fields where
  addr : Option String := none
  secret : Option String := none
  cipher : Option String := none
  base : Option String := none
  writes : Option PrefixConfig := none

/-- Reads a field behind its name. -/
def Fields.read (name : String) (f : Fields) : Reader Fields := do
  match name with
  | "addr" => return { f with addr := ← once name f.addr text }
  | "secret" => return { f with secret := ← once name f.secret text }
  | "cipher" => return { f with cipher := ← once name f.cipher text }
  | "upstream" => return { f with base := ← once name f.base text }
  | "prefix" => return { f with writes := ← once name f.writes PrefixConfig.reader }
  | _ => ignored; return f

def Fields.finish (f : Fields) : Reader DialerConfig := do
  return {
    addr := ← need "addr" f.addr
    secret := ← need "secret" f.secret
    cipher := ← need "cipher" f.cipher
    base := ← need "upstream" f.base
    writes := f.writes.getD .nothing }

/-- A dialer as an array. -/
def ofArray : Reader DialerConfig := do
  let whole := "struct DialerConfig with 5 elements"
  let addr ← elementAt whole 0 text
  let secret ← elementAt whole 1 text
  let cipher ← elementAt whole 2 text
  let base ← elementAt whole 3 text
  let writes ← elementOr .nothing PrefixConfig.reader
  return { addr, secret, cipher, base, writes }

def reader : Reader DialerConfig :=
  record "struct DialerConfig" ofArray do Fields.finish (← members Fields.read {})

def ofJson (s : String) : Except Json.Fault DialerConfig :=
  readText reader s

end DialerConfig

namespace ListenerConfig

structure Fields where
  addr : Option String := none
  secret : Option String := none
  cipher : Option String := none
  replayHistory : Option Nat := none
  absorb : Option AbsorbConfig := none
  absorbTimeout : Option Nat := none

def Fields.read (name : String) (f : Fields) : Reader Fields := do
  match name with
  | "addr" => return { f with addr := ← once name f.addr text }
  | "secret" => return { f with secret := ← once name f.secret text }
  | "cipher" => return { f with cipher := ← once name f.cipher text }
  | "replay_history" => return { f with replayHistory := ← once name f.replayHistory size }
  | "absorb" => return { f with absorb := ← once name f.absorb AbsorbConfig.reader }
  | "absorb_timeout_ms" =>
    return { f with absorbTimeout := ← once name f.absorbTimeout (count "u64") }
  | _ => ignored; return f

def Fields.finish (f : Fields) : Reader ListenerConfig := do
  return {
    addr := ← need "addr" f.addr
    secret := ← need "secret" f.secret
    cipher := ← need "cipher" f.cipher
    replayHistory := f.replayHistory.getD 0
    absorb := f.absorb.getD .nothing
    absorbTimeout := f.absorbTimeout.getD standardAbsorbTimeout }

def ofArray : Reader ListenerConfig := do
  let whole := "struct ListenerConfig with 6 elements"
  let addr ← elementAt whole 0 text
  let secret ← elementAt whole 1 text
  let cipher ← elementAt whole 2 text
  let replayHistory ← elementOr 0 size
  let absorb ← elementOr .nothing AbsorbConfig.reader
  let absorbTimeout ← elementOr standardAbsorbTimeout (count "u64")
  return { addr, secret, cipher, replayHistory, absorb, absorbTimeout }

def reader : Reader ListenerConfig :=
  record "struct ListenerConfig" ofArray do Fields.finish (← members Fields.read {})

def ofJson (s : String) : Except Json.Fault ListenerConfig :=
  readText reader s

end ListenerConfig

end Camouflage
