import Parley.Config
import Parley.Engine
import Parley.Grammar.Parameter
import Parley.Grammar.Rules

/-! # Parsers

A parser reads texts over one ontology in one configuration, and keeps its cache
from one text to the next. It reads objects and blocks of parameters.
-/

namespace Parley

structure Parser where
  ontology : Ontology
  config : Config := {}
  cache : Cache := {}

namespace Parser

def setting (p : Parser) : Setting :=
  ⟨p.ontology, p.config.domainName⟩

/-- The engine of a parser, with the rules of the grammar. -/
def engine (p : Parser) : Engine :=
  ⟨Grammar.rules, p.setting, p.config.cacheEnabled⟩

def parse (p : Parser) (text : Text) : Except GrammarError Object × Parser :=
  let (result, cache) := p.engine.parse text p.cache
  (result, { p with cache := cache })

/-- Reads the value of a parameter. An error in the value takes `key=value` into its trail. -/
def parameter (p : Parser) (key value : Text) : Except GrammarError ParameterValue × Parser :=
  match Grammar.valueGrammars.get? key with
  | none => (.error { cause := .unsupportedParameter key value }, p)
  | some grammar =>
    let (outcome, cache) := p.engine.read (grammar p.setting value) value p.cache
    let p := { p with cache := cache }
    match outcome with
    | .value found => (.ok found, p)
    | .declined => (.error { cause := .invalidParameter key value }, p)
    | .error e => (.error (e.within (key ++ '=' :: value)), p)

/-- Reads entries of a block and adds them to parameters; the last entry of a key counts. -/
def entries (p : Parser) (found : Parameters) : List Text → Except GrammarError Parameters × Parser
  | [] => (.ok found, p)
  | entry :: rest =>
    match splitPair? entry with
    | none => (.error { cause := .malformedParameter entry }, p)
    | some (key, value) =>
      match p.parameter key value with
      | (.ok v, p) => entries p (found.insertAscending key v) rest
      | (.error e, p) => (.error e, p)

/-- The entries of a block of parameters, whose braces may be left out. -/
def blockEntries (block : Text) : List Text :=
  let trimmed := block.trim
  splitTopLevel ',' ((braced? trimmed).getD trimmed)

def parseParameters (p : Parser) (block : Text) : Except GrammarError Parameters × Parser :=
  match p.entries [] (blockEntries block) with
  | (.ok found, p) => (.ok found, p)
  | (.error e, p) => (.error (e.within block), p)

def clear (p : Parser) : Parser :=
  { p with cache := p.cache.clear }

def stats (p : Parser) : CacheStats :=
  p.cache.stats

def describe (p : Parser) : Text :=
  .concat ["Parser \x7b ontology: ", p.ontology.describe.quoted, ", config: ", p.config.describe,
    ", cache: ", p.stats.describe, " \x7d"]

end Parser

end Parley
