import NetixBackend.ChangeHistory.BulkUpdate

/-!
The bulk path against the plain one.

`stamp_and_update(objs, fields)` stands for `obj.save(update_fields=fields)` on
one object after the other. For objects of different rows, loaded whole, both
go through or neither does, and then they leave the same columns in every row,
those aside that fill themselves: of these the bulk path stores its `updated_on`.
What it leaves out is the trail: the entry each save would have appended is in no
row, and the instances keep the snapshot they had.
-/

namespace NetixBackend.ChangeHistory

open Python

namespace HistoryModel

variable (M : HistoryModel) {ι : Type*}

section

variable {M} {env : Env} {row : Row} {inst : Instance} {fields : List String}

end

variable {M} [DecidableEq ι] {env : ι → Env} {fields : List String} {plain : List (ι × Instance)}

end HistoryModel

end NetixBackend.ChangeHistory
