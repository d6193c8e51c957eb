import Mathlib.Data.Set.Lattice

/-!
# Bloom filters as sets of bit positions

A filter is the set of positions that are set; each key probes a set of positions.  Adding a key
sets its probes and a key is reported as a member when all its probes are set.  Everything a
client needs follows from the fact that membership is monotone in the filter.
-/

namespace Bloom

variable {κ ι : Type*}

def add (probes : κ → Set ι) (bits : Set ι) (key : κ) : Set ι := bits ∪ probes key

def Reports (probes : κ → Set ι) (bits : Set ι) (key : κ) : Prop := probes key ⊆ bits

theorem subset_add (probes : κ → Set ι) (bits : Set ι) (key : κ) : bits ⊆ add probes bits key :=
  Set.subset_union_left

theorem reports_add_self (probes : κ → Set ι) (bits : Set ι) (key : κ) :
    Reports probes (add probes bits key) key :=
  Set.subset_union_right

theorem Reports.mono {probes : κ → Set ι} {bits more : Set ι} {key : κ}
    (reported : Reports probes bits key) (grows : bits ⊆ more) : Reports probes more key :=
  reported.trans grows

end Bloom
