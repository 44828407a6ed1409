import Rootmode.Lib.Text
import Rootmode.Lib.Words

namespace Rootmode.Worker.Screen

open Lib Lib.Text

/-- Words that say a subject is a child. -/
def minor : List Text :=
  ["child", "children", "kid", "kids", "toddler", "toddlers", "infant", "infants", "baby", "babies", "minor",
    "minors", "preteen", "preteens", "preadolescent", "prepubescent", "pubescent", "underage", "juvenile",
    "schoolgirl", "schoolgirls", "schoolboy", "schoolboys", "kindergarten", "preschool", "preschooler", "boy",
    "boys", "girl", "girls", "teen", "teens", "teenage", "teenager", "teenagers", "teenaged", "adolescent",
    "adolescents", "youngster", "youngsters", "lolita"].map ofString

/-- Phrases, checked whole because their words are innocent apart. -/
def minorPhrases : List Text :=
  ["elementary school", "middle school", "grade school", "primary school", "little boy", "little girl", "young boy",
    "young girl"].map ofString

/-- Terms with no other meaning. -/
def always : List Text :=
  ["loli", "shota", "lolicon", "shotacon", "jailbait", "csam", "pedo", "pedophile", "paedophile", "pedophilia",
    "paedophilia"].map ofString

def alwaysPhrases : List Text :=
  ["child porn", "child pornography", "kiddie porn", "cheese pizza"].map ofString

/-- Words that make a request sexual. -/
def sexual : List Text :=
  ["nude", "nudes", "nudity", "naked", "undressed", "unclothed", "topless", "bottomless", "nsfw", "porn", "porno",
    "pornographic", "pornography", "hentai", "erotic", "erotica", "sexy", "sexual", "sexualized", "sexualised", "sex",
    "orgasm", "masturbating", "masturbation", "genitals", "genitalia", "penis", "vagina", "vulva", "breasts", "boobs",
    "tits", "nipples", "areola", "buttocks", "anus", "anal", "blowjob", "cum", "semen", "fellatio", "cunnilingus",
    "intercourse", "fondling", "molested", "molesting", "rape", "raped", "incest", "bdsm", "fetish", "lingerie",
    "bikini", "underwear", "panties", "thong", "seductive", "provocative"].map ofString

def sexualPhrases : List Text := ["oral sex", "spread legs", "sexual act", "having sex"].map ofString

/-- What says of a number before it that it is an age. -/
def ageAfter : List Text := ["yo", "y/o", "yr", "year", "years old"].map ofString

/-- What says so of a number after it. -/
def ageBefore : List Text := ["age", "aged", "age of", "old"].map ofString

/-- What may stand between a number and that. -/
def isGap (c : Char) : Bool := c == '-' || c == ' ' || c == '_'

section Ages

variable (before digits rest : Text)

def saysAge : Bool := ageAfter.any fun m => m.isPrefixOf (rest.dropWhile isGap)

def calledAge : Bool := ageBefore.any fun m => m.isSuffixOf (before.rdropWhile isGap)

/-- At most two digits, of a number under eighteen. -/
def minorNumber : Bool :=
  digits.length ≤ 2 && digits.foldl (fun n c => 10 * n + (c.toNat - 48)) 0 < 18

/-- From here on, with so much of the text before it. -/
def agesFrom (before : Text) : Text → Bool
  | [] => false
  | c :: rest =>
    if c.isDigit && !before.getLast?.any Char.isDigit then
      -- a run of digits is read as one number
      let digits := (c :: rest).takeWhile Char.isDigit
      let rest' := (c :: rest).dropWhile Char.isDigit
      minorNumber digits && (saysAge rest' || calledAge before) || agesFrom (before ++ [c]) rest
    else agesFrom (before ++ [c]) rest

/-- Ages written as numbers. -/
def statesAMinorAge (text : Text) : Bool := agesFrom [] text

end Ages

section Check

variable (alphanumeric : Char → Bool)

def anyWord (ws list : List Text) : Bool := ws.any fun w => list.contains w

/-- Whether one text occurs in another. -/
def contains (text p : Text) : Bool := text.tails.any fun rest => p.isPrefixOf rest

def anyPhrase (text : Text) (list : List Text) : Bool := list.any fun p => contains text p

/-- The decision on a text in lower case. -/
def decideOn (text : Text) : Except String Unit :=
  let ws := words alphanumeric text
  if anyWord ws always || anyPhrase text alwaysPhrases then
    .error "refused: this worker will not produce sexual content involving minors."
  else
    let minor := anyWord ws minor || anyPhrase text minorPhrases || statesAMinorAge text
    let sexual := anyWord ws sexual || anyPhrase text sexualPhrases
    if minor && sexual then
      .error ("refused: this reads as a request for sexual content involving a minor. " ++
        "This worker will not produce that. If the request was innocent, the words " ++
        "that triggered it can usually be rephrased.")
    else .ok ()

/-- What a job says. -/
inductive Payload
  | image (prompt : Text)
  | video (prompt : Text)
  | llm (messages : List Text)

def Payload.text : Payload → Text
  | .image prompt => prompt
  | .video prompt => prompt
  | .llm messages => [' '].intercalate messages

/-- Whether a job may run. -/
def check (lowercase : Text → Text) (payload : Payload) : Except String Unit :=
  decideOn alphanumeric (lowercase payload.text)

end Check

end Rootmode.Worker.Screen
