import Mathlib.Data.List.Range

/-!
# Lists of entries

A map as a list of keys with their values, of which the first entry with a key
counts.  As long as the keys are distinct the order of the entries does not
matter, so that a permutation describes an entry that is added or removed.
-/

namespace Horizon
namespace AssocList

open List

variable {key value : Type}

variable [BEq key] [LawfulBEq key]

variable {entries entries' : List (key × value)} {a : key} {v : value}

section

variable (h : (entries.map Prod.fst).Nodup)
include h

end

end AssocList
end Horizon
