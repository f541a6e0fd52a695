import Colloquy.Proofs.Json.Fields
import Colloquy.RunOptions

/-!
# Colloquy — laws of options

Options are a map (`RunOptions.get?_set`, `RunOptions.get?_remove`). The handle of a
response is one of them: a text is the handle unless it is blank
(`RunOptions.previousResponseId?_of_get?`).
-/

namespace Colloquy.RunOptions

theorem get?_set (o : RunOptions) (key written : String) (value : Json) :
    (o.set written value).get? key = if key = written then some value else o.get? key :=
  Fields.get?_insert key written value o.values

theorem get?_remove (o : RunOptions) (key removed : String) :
    (o.remove removed).get? key = if key = removed then none else o.get? key :=
  Fields.get?_erase key removed o.values

theorem contains_remove (o : RunOptions) (key removed : String) :
    (o.remove removed).contains key = (key != removed && o.contains key) :=
  Fields.contains_erase key removed o.values

-- ---------------------------------------------------------------------------
-- The handle of a response
-- ---------------------------------------------------------------------------

theorem previousResponseId?_of_get? {o : RunOptions} {handle? : Option String}
    (h : o.get? "previous_response_id" = handle?.map .str) :
    o.previousResponseId? = handle?.filter fun handle => !Text.allBlank handle.toList := by
  rw [previousResponseId?, getStr?, h]
  cases handle? <;> rfl

theorem not_allBlank_of_previousResponseId? {o : RunOptions} {handle : String}
    (h : o.previousResponseId? = some handle) : Text.allBlank handle.toList = false := by
  rw [previousResponseId?, Option.filter_eq_some_iff] at h
  simpa using h.2

end Colloquy.RunOptions
