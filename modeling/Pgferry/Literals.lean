/-
  The text of a `SET` (`set_parameter` of `pool.rs`, the GUC replay of `session.rs`).

  Both build `SET {name} = '{escaped}'` with the quotes of the value doubled. The value is the
  client's (a startup parameter, or a parameter that the server reported), and the text does not
  pass the interceptor. A parameter has a name of words with dots between them, as PostgreSQL
  allows it.

  Proved: `set_literal_whole`. For every value without a NUL the text reads as `SET`, the name, an
  equals sign and one string constant with exactly that value, and nothing follows.
-/
import Pgferry.Lib.SqlText
import Pgferry.Pool

namespace Pgferry

open SqlText

/-- The name of a parameter: the words `parts` with dots between them. -/
structure IsParameterName (name : String) (parts : List (List Char)) : Prop where
  text : name.toList = ['.'].intercalate parts
  nonempty : parts ≠ []
  words : ∀ part ∈ parts, IsWord part

theorem setSql_toList (name value : String) :
    (setSql name value).toList =
      "SET".toList ++ ' ' :: (name.toList ++ ' ' :: '=' :: ' ' ::
        '\'' :: (doubled '\'' value.toList ++ ['\''])) := by
  simp [setSql, escapeQuotes, doubled]

/-- The text has a NUL only where the value has one. -/
theorem setSql_no_nul {name : String} {parts : List (List Char)} {value : String}
    (hname : IsParameterName name parts) (hnul : '\x00' ∉ value.toList) :
    '\x00' ∉ (setSql name value).toList := by
  have hname' : '\x00' ∉ name.toList := by
    rw [hname.text]
    intro hmem
    rcases name_chars hname.words _ hmem with h | h
    · exact absurd h (by decide)
    · exact absurd h (by decide)
  have hvalue : '\x00' ∉ doubled '\'' value.toList := by
    intro hmem
    obtain ⟨ch, hch, hmem⟩ := List.mem_flatMap.mp hmem
    split at hmem
    · exact absurd hmem (by decide)
    · exact hnul (List.mem_singleton.mp hmem ▸ hch)
  rw [setSql_toList]
  simp [hname', hvalue]

/-- The text of a `SET`, token by token. -/
theorem setSql_tokens {name : String} {parts : List (List Char)} (value : String)
    (hname : IsParameterName name parts) :
    Tokens (setSql name value).toList
      (.word "SET".toList :: ((parts.map Token.word).intersperse (.symbol '.') ++
        [.symbol '=', .string value.toList])) := by
  rw [setSql_toList, hname.text]
  refine Tokens.word (by decide) ?_ (opensOther_of_head nofun nofun) (Tokens.blank ?_)
  · rintro ch ⟨⟩
    rfl
  · exact Tokens.name hname.nonempty hname.words
      (Tokens.blank (Tokens.equals (Tokens.blank (Tokens.string value.toList))))

theorem tracked_isParameterName {name : String} (h : name ∈ trackedStartupParameters) :
    IsParameterName name [name.toList] := by
  have hwords : ∀ name ∈ trackedStartupParameters, IsWord name.toList := by
    decide
  exact ⟨by simp [List.intercalate], List.cons_ne_nil _ _, by simpa using hwords name h⟩

/-- `set_parameter` sets tracked startup parameters, the GUC replay whatever the server has
    reported. -/
theorem set_literal_whole (value : String) (hnul : '\x00' ∉ value.toList) :
    (∀ name ∈ trackedStartupParameters, tokenize (setSql name value).toList =
      some [.word "SET".toList, .word name.toList, .symbol '=', .string value.toList]) ∧
    ∀ (name : String) (parts : List (List Char)), IsParameterName name parts →
      tokenize (setSql name value).toList =
        some (.word "SET".toList :: ((parts.map Token.word).intersperse (.symbol '.') ++
          [.symbol '=', .string value.toList])) := by
  have hread : ∀ (name : String) (parts : List (List Char)), IsParameterName name parts →
      tokenize (setSql name value).toList =
        some (.word "SET".toList :: ((parts.map Token.word).intersperse (.symbol '.') ++
          [.symbol '=', .string value.toList])) :=
    fun name parts hname => (setSql_tokens value hname).tokenize (setSql_no_nul hname hnul)
  exact ⟨fun name hname => hread name _ (tracked_isParameterName hname), hread⟩

/-- Values that try to leave their literal, with a plain and with a dotted name. -/
theorem set_literal_whole_hostile :
    tokenize (setSql "application_name" "'; DROP TABLE t; --").toList =
        some [.word "SET".toList, .word "application_name".toList, .symbol '=',
          .string "'; DROP TABLE t; --".toList] ∧
      tokenize (setSql "my.guc" "\\'").toList =
        some [.word "SET".toList, .word "my".toList, .symbol '.', .word "guc".toList, .symbol '=',
          .string "\\'".toList] :=
  ⟨(set_literal_whole "'; DROP TABLE t; --" (by decide)).1 "application_name" (by decide),
    (set_literal_whole "\\'" (by decide)).2 "my.guc" ["my".toList, "guc".toList]
      ⟨by decide, List.cons_ne_nil _ _, by decide⟩⟩

end Pgferry
