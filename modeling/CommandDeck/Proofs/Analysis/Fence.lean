import CommandDeck.Analysis.Response
import CommandDeck.Proofs.Text.Trim

/-!
# Responses in a fence

A response that stands in a fence is read as if the fence were not there: it has the same document, and with
it the same manifest or the same fault. The marks that end a fence are the last ones, so marks inside the
document do no harm.
-/

namespace CommandDeck

namespace Analysis

/-- A text in a fence, with a remark after the opening mark. -/
def fenced (remark body : List Char) : List Char :=
  fence ++ remark ++ '\n' :: (body ++ '\n' :: fence)

theorem fenced_bare (remark body : List Char) : Text.Bare (fenced remark body) where
  first := by
    rintro c ⟨⟩
    decide
  last := by
    have last : (fenced remark body).getLast? = some '`' := by
      simp [fenced, fence, List.getLast?_append, List.getLast?_cons]
    rw [last]
    rintro c ⟨⟩
    decide

/-- The remark ends with its line, and the last three marks are those that close the fence. -/
theorem unfenced_fenced {remark : List Char} (line : '\n' ∉ remark) (body : List Char) :
    unfenced (fenced remark body) = Text.trim body := by
  have opened : Text.dropStart? fence (fenced remark body) =
      some (remark ++ '\n' :: (body ++ '\n' :: fence)) := by
    rw [fenced, List.append_assoc, Text.dropStart?_append]
  have remarked : (remark ++ '\n' :: (body ++ '\n' :: fence)).dropWhile (fun c => c ≠ '\n') =
      '\n' :: (body ++ '\n' :: fence) := by
    rw [List.dropWhile_append_of_pos, List.dropWhile_cons_of_neg (by simp)]
    intro c mem
    exact decide_eq_true fun same => line (same ▸ mem)
  have closing : Text.trimEnd (body ++ '\n' :: fence) = body ++ '\n' :: fence := by
    refine Text.trimEnd_of_last ?_
    have last : (body ++ '\n' :: fence).getLast? = some '`' := by
      simp [fence, List.getLast?_append, List.getLast?_cons]
    rw [last]
    rintro c ⟨⟩
    decide
  have closed : Text.dropEnd? fence (body ++ '\n' :: fence) = some (body ++ ['\n']) := by
    have parts : body ++ '\n' :: fence = body ++ ['\n'] ++ fence := by simp
    rw [parts, Text.dropEnd?_append]
  have lineBreak : ['\n'].all isBlank = true := by decide
  simp only [unfenced, opened, remarked, List.drop_succ_cons, List.drop_zero, closing, closed,
    Option.getD_some]
  exact Text.trim_blanks lineBreak body

/-- The document of a text that does not begin with a fence is the text without the white space around
it. -/
theorem document_of_bare {body : String} (bare : ¬ fence <+: Text.trim body.toList) :
    document body = Text.trim body.toList := by
  rw [document, unfenced, Text.dropStart?_eq_none bare]

theorem document_fenced {before after remark : String} (leading : Text.isBlankText before = true)
    (trailing : Text.isBlankText after = true) (line : '\n' ∉ remark.toList) (body : String) :
    document (before ++ "```" ++ remark ++ "\n" ++ body ++ "\n```" ++ after) =
      Text.trim body.toList := by
  have text : (before ++ "```" ++ remark ++ "\n" ++ body ++ "\n```" ++ after).toList =
      before.toList ++ fenced remark.toList body.toList ++ after.toList := by
    have mark : "```".toList = fence := rfl
    have next : "\n".toList = ['\n'] := rfl
    have close : "\n```".toList = '\n' :: fence := rfl
    simp only [String.toList_append, mark, next, close, fenced, List.append_assoc, List.cons_append,
      List.nil_append]
  rw [document, text, Text.trim_between leading trailing, Text.trim_of_bare (fenced_bare _ _),
    unfenced_fenced line]

theorem readResponse_congr {response other : String} (same : document response = document other) :
    readResponse response = readResponse other := by
  rw [readResponse, readResponse, same]

/-- A fence around a response is not seen, whatever stands after its opening mark on the same line, and
whatever white space is around it. -/
theorem readResponse_in_fence {before after remark body : String}
    (leading : Text.isBlankText before = true) (trailing : Text.isBlankText after = true)
    (line : '\n' ∉ remark.toList) (bare : ¬ fence <+: Text.trim body.toList) :
    readResponse (before ++ "```" ++ remark ++ "\n" ++ body ++ "\n```" ++ after) =
      readResponse body :=
  readResponse_congr ((document_fenced leading trailing line body).trans (document_of_bare bare).symm)

/-- A manifest that holds a fence itself, between line breaks of two kinds, and a text of two marks and a
blank, in fences with remarks. -/
theorem awkward_responses_in_fence :
    let bare := "\r\n\x7b\"namespace\":\"\\n```\",\"source\":\"\",\"generated_at\":\"\",\"language\":\"\"\x7d\r"
    let marks := "\u2003``\r\n"
    readResponse ("\u00a0\n" ++ "```" ++ "json ```\r" ++ "\n" ++ bare ++ "\n```" ++ "\r\n") =
        readResponse bare ∧
      (readResponse bare).isOk = true ∧
      readResponse ("" ++ "```" ++ "`" ++ "\n" ++ marks ++ "\n```" ++ "") = readResponse marks ∧
      (readResponse marks).isOk = false := by
  intro bare marks
  have bareFence : ¬ fence <+: Text.trim bare.toList := by decide +kernel
  have marksFence : ¬ fence <+: Text.trim marks.toList := by decide +kernel
  refine ⟨?_, by decide +kernel, ?_, by decide +kernel⟩
  · exact readResponse_in_fence (by decide) (by decide) (by decide) bareFence
  · exact readResponse_in_fence (by decide) (by decide) (by decide) marksFence

end Analysis

end CommandDeck
