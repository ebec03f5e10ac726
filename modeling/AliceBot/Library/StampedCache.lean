import Mathlib.Data.Option.Basic

/-!
# Caches validated by a stamp

A store that is read in several versions at once (what is committed, the changes of a writer
that are not) may carry a stamp that is replaced where a stored value is changed or destroyed.
A cache keeps the stamp it was filled under and is used with every version of that stamp.

Versions and caches are partial maps under a stamp. A write that fills an empty place keeps
the stamp, so versions of one stamp are not equal: they *grow* (`Grows`), and a cache is right
for a version as long as the two *agree* (`Agrees`). A write keeps what grows into it
(`Grows.write`); a cache that takes up what a version holds grows into, or agrees with, all
that the version does (`Grows.fill`, `Agrees.fill`).
-/

namespace PyLib

/-- A partial map under a stamp; without a stamp it takes part in nothing. -/
structure Stamped (τ κ ν : Type*) where
  stamp : Option τ
  find : κ → Option ν

namespace Stamped

variable {τ κ ν : Type*} {a b c d : Stamped τ κ ν} {t : τ}

/-- Under a common stamp the two maps hold no two values for one key. -/
def Agrees (a b : Stamped τ κ ν) : Prop :=
  ∀ t, a.stamp = some t → b.stamp = some t →
    ∀ k x y, a.find k = some x → b.find k = some y → x = y

/-- As long as `b` carries the stamp of `a`, it holds everything `a` holds. -/
def Grows (a b : Stamped τ κ ν) : Prop :=
  ∀ t, a.stamp = some t → b.stamp = some t → ∀ k x, a.find k = some x → b.find k = some x

/-- A write keeps the stamp and every value, or leaves no stamp but `t`. -/
def Written (t : τ) (a b : Stamped τ κ ν) : Prop :=
  b.stamp = a.stamp ∧ (∀ k x, a.find k = some x → b.find k = some x) ∨
    ∀ s, b.stamp = some s → s = t

/-- What `c` holds under the stamp `t` is from the cache `a` of that stamp, or from the version
`d`, if it has the stamp; or nothing is taken up. -/
def TakesUp (t : τ) (d a c : Stamped τ κ ν) : Prop :=
  c = a ∨ c.stamp = some t ∧
    (d.stamp = some t → ∀ k x, c.find k = some x →
      a.stamp = some t ∧ a.find k = some x ∨ d.find k = some x)

theorem Agrees.refl (a : Stamped τ κ ν) : a.Agrees a := by
  intro t _ _ k x y hx hy
  rw [hx] at hy
  exact Option.some.inj hy

theorem Agrees.symm (h : a.Agrees b) : b.Agrees a :=
  fun t hb ha k x y hx hy => (h t ha hb k y x hy hx).symm

theorem Grows.refl (a : Stamped τ κ ν) : a.Grows a := fun _ _ _ _ _ h => h

theorem Grows.agrees (h : a.Grows b) : a.Agrees b := by
  intro t ha hb k x y hx hy
  have hk := h t ha hb k x hx
  rw [hk] at hy
  exact Option.some.inj hy

theorem grows_of_stamp_none (h : a.stamp = none) (b : Stamped τ κ ν) : a.Grows b := by
  intro t ha
  rw [h] at ha
  cases ha

/-- A write keeps what grows, if the stamp it leaves is new. -/
theorem Grows.write (h : a.Grows b) (hfresh : a.stamp ≠ some t) (hwrite : Written t b c) :
    a.Grows c := by
  intro s ha hc k x hx
  rcases hwrite with ⟨hstamp, hkeeps⟩ | hbumps
  · exact hkeeps k x (h s ha (hstamp ▸ hc) k x hx)
  · obtain rfl := hbumps s hc
    exact absurd ha hfresh

/-- A cache that takes up what a version holds grows into what both grew into. -/
theorem Grows.fill (hfill : TakesUp t d a c) (ha : a.Grows b) (hd : d.Grows b)
    (hstamp : b.stamp = some t → d.stamp = some t) : c.Grows b := by
  rcases hfill with rfl | ⟨hct, htaken⟩
  · exact ha
  · intro s hcs hbs k x hx
    obtain rfl : t = s := Option.some.inj (hct.symm.trans hcs)
    have hdt := hstamp hbs
    rcases htaken hdt k x hx with ⟨hat, hax⟩ | hdx
    · exact ha t hat hbs k x hax
    · exact hd t hdt hbs k x hdx

/-- A cache that takes up what a version holds agrees with what both agreed with. -/
theorem Agrees.fill (hfill : TakesUp t d a c) (ha : a.Agrees b) (hd : d.Agrees b)
    (hstamp : b.stamp = some t → d.stamp = some t) : c.Agrees b := by
  rcases hfill with rfl | ⟨hct, htaken⟩
  · exact ha
  · intro s hcs hbs k x y hx hy
    obtain rfl : t = s := Option.some.inj (hct.symm.trans hcs)
    have hdt := hstamp hbs
    rcases htaken hdt k x hx with ⟨hat, hax⟩ | hdx
    · exact ha t hat hbs k x y hax hy
    · exact hd t hdt hbs k x y hdx hy

end Stamped

end PyLib
