import SortView.Lib.Pattern

/-!
# Searches for words

`re.search` of words with and without word boundaries, and of the field that follows a marker. Which characters are part of a
word is a parameter.
-/

namespace Search

open PyText

/-- A word of a search: whether `\b` stands before it and after it. -/
structure SearchWord where
  opens : Bool
  word : Text
  closes : Bool

variable (isWord : Char → Bool)

/-- Whether the word is at the start of a text that follows a character. -/
def SearchWord.startsAt (search : SearchWord) (before : Option Char) (text : Text) : Bool :=
  search.word.isPrefixOf text && (!search.opens || wordBoundary isWord before text.head?)
    && (!search.closes || wordBoundary isWord search.word.getLast? (text.drop search.word.length).head?)

def SearchWord.foundFrom (search : SearchWord) : Option Char → Text → Bool
  | before, [] => search.startsAt isWord before []
  | before, c :: text => search.startsAt isWord before (c :: text) || search.foundFrom (some c) text

/-- The search for one word or another. -/
def searchAny (searches : List SearchWord) (text : Text) : Bool := searches.any fun search => search.foundFrom isWord none text

/-- `marker([^|]*)`: what follows the first marker, up to the next bar. -/
def fieldAfter (marker : Text) : Text → Option Text
  | [] => none
  | c :: text =>
      if marker.isPrefixOf (c :: text) then some (((c :: text).drop marker.length).takeWhile (· != '|'))
      else fieldAfter marker text

end Search
