import FullText.Aggregation.Call
import FullText.Aggregation.ReadBack

/-!
# Aggregation commands can be read in one way only

* `AggregateReading.tokens`            the tokens that say a reading, clause by clause;
* `Aggregation.tokens_reading`         the tokens of a request are those of its reading;
* `Aggregation.readable_in_one_way`    whatever calls have built a request, its tokens are read to
                                       their end, and only the same reading has the same tokens.

A reading counts the tokens that it holds.  A request has three ways to count them: the fields of a
group, the widths of what is loaded or sorted by, and twice the number of parameters.  The laws below
say that each of them is the number of tokens that follow.
-/

namespace FullText

/-! ## the tokens of a reading -/

def ReducerReading.tokens (r : ReducerReading) : List Token :=
  .text "REDUCE" :: r.function :: .nat r.args.length :: (r.args ++ Token.option "AS" r.label)

def StageReading.tokens : StageReading → List Token
  | .groupBy fields reducers =>
    .text "GROUPBY" :: .nat fields.length :: (fields ++ reducers.flatMap ReducerReading.tokens)
  | .sortBy keys max => .text "SORTBY" :: .nat keys.length :: (keys ++ Token.option "MAX" max)
  | .apply expression label => [.text "APPLY", expression, .text "AS", label]
  | .filter expression => [.text "FILTER", expression]
  | .limit offset count => [.text "LIMIT", offset, count]

def LoadReading.tokens : LoadReading → List Token
  | .all => [.text "LOAD", .text "*"]
  | .fields ts => if ts.isEmpty then [] else .text "LOAD" :: .nat ts.length :: ts

def CursorReading.tokens (c : CursorReading) : List Token :=
  .text "WITHCURSOR" :: (Token.option "COUNT" c.count ++ Token.option "MAXIDLE" c.maxIdle)

/-- the clause that binds parameters: the number of tokens, then names and values in turn -/
def Params.readingTokens (ps : List (Token × Token)) : List Token :=
  if ps.isEmpty then [] else .text "PARAMS" :: .nat (2 * ps.length) :: ps.flatMap fun p => [p.1, p.2]

/-- the tokens that say a reading -/
def AggregateReading.tokens (r : AggregateReading) : List Token :=
  r.text :: (Token.flag "VERBATIM" r.verbatim
    ++ r.load.tokens
    ++ Token.option "TIMEOUT" r.timeout
    ++ r.stages.flatMap StageReading.tokens
    ++ (r.cursor.map CursorReading.tokens).getD []
    ++ Params.readingTokens r.params
    ++ Token.option "DIALECT" r.dialect)

/-! ## the tokens of a request are those of its reading -/

theorem Stage.tokens_reading (s : Stage) : s.reading.tokens = s.tokens := by
  cases s with
  | groupBy fields reducers =>
    show _ :: Token.nat (Token.names fields).length :: (_ ++ (reducers.map Reducer.reading).flatMap _) = _
    rw [Token.length_names, List.flatMap_map]
    rfl
  | sortBy keys max =>
    show _ :: Token.nat (keys.flatMap SortKey.tokens).length :: _ = _
    rw [SortKey.length_flatMap_tokens]
    rfl
  | apply expression label => rfl
  | filter expression => rfl
  | limit offset count => rfl

theorem Load.tokens_reading (l : Load) : l.reading.tokens = l.tokens := by
  cases l with
  | all => rfl
  | fields fs =>
    cases fs with
    | nil => rfl
    | cons f fs =>
      -- a field has at least its name, so some fields are some tokens
      have hne : ((f :: fs).flatMap FieldName.tokens).isEmpty = false := by
        obtain ⟨name, label⟩ := f
        cases label <;> rfl
      show (if ((f :: fs).flatMap FieldName.tokens).isEmpty then []
        else _ :: Token.nat ((f :: fs).flatMap FieldName.tokens).length :: _) = _
      rw [hne, FieldName.length_flatMap_tokens]
      rfl

theorem CursorOptions.tokens_reading (c : Option CursorOptions) :
    ((c.map reading).map CursorReading.tokens).getD [] = (c.map tokens).getD [] := by
  cases c <;> rfl

theorem Params.tokens_reading (ps : Params) : readingTokens (reading ps) = tokens ps := by
  unfold readingTokens reading tokens
  rw [List.isEmpty_map, List.length_map, List.flatMap_map]

theorem Aggregation.tokens_reading (a : Aggregation) (default : Option Int) :
    (a.reading default).tokens = a.compile default := by
  unfold AggregateReading.tokens reading compile
  simp only [Load.tokens_reading, CursorOptions.tokens_reading, Params.tokens_reading,
    Dialect.option_reading, List.flatMap_map, Stage.tokens_reading]

/-- Two requests have the same tokens if and only if they have the same reading. -/
theorem Aggregation.compile_eq_iff {a b : Aggregation} {d e : Option Int} :
    a.compile d = b.compile e ↔ a.reading d = b.reading e := by
  constructor
  · intro h
    have hr := Reader.aggregate_append a d
    rw [h, Reader.aggregate_append b e] at hr
    exact (Prod.mk.inj (Option.some.inj hr)).1.symm
  · intro h
    rw [← a.tokens_reading, ← b.tokens_reading, h]

/-- Whatever calls have built an aggregation, its tokens are read to their end and give back every
    part of it; and another one has the same tokens if and only if it has the same reading. -/
theorem Aggregation.readable_in_one_way (text : String) (cs : List Call) (default : Option Int) :
    Reader.aggregate ((calls { text := text } cs).compile default)
        = some ((calls { text := text } cs).reading default, [])
      ∧ ∀ (text' : String) (cs' : List Call) (default' : Option Int),
          (calls { text := text' } cs').compile default'
              = (calls { text := text } cs).compile default
            ↔ (calls { text := text' } cs').reading default'
              = (calls { text := text } cs).reading default :=
  ⟨Reader.aggregate_append _ default, fun _ _ _ => compile_eq_iff⟩

end FullText
