import Mathlib.Data.Finset.Card
import Mathlib.Order.Interval.Finset.Nat
import Sisfila.Concurrency.Desks
import Sisfila.Concurrency.Positions
import Sisfila.Framework.Handover

namespace Sisfila

namespace Core

variable {k : Core} {f : Nat}

theorem le_maiorPosicao {v : VagaBase} {p : Int} (hv : v ∈ k.vagasDe f) (hp : v.posicao=some p) :
    p≤(k.maiorPosicao f : Int) := Table.le_bottom hv hp

theorem maiorPosicao_le {n : Nat} (h : ∀ v ∈ k.vagasDe f,∀ p ∈ v.posicao,p≤(n : Int)) :
    k.maiorPosicao f≤n := Table.bottom_le h

/-- Distinct positions from 1 on reach at least as far as there are vagas. -/
theorem length_le_maiorPosicao (hu : k.PosicoesUnicas) (hs : ∀ v ∈ k.vagas.rows,v.posicao.isSome) :
    (k.vagasDe f).length≤k.maiorPosicao f := by
  have hnd : (k.vagasDe f).Nodup := k.vagas.nodup_rows.filter _
  have hpos : ∀ v ∈ k.vagasDe f,∃ p : Int,v.posicao=some p ∧ 1≤p := by
    intro v hv
    obtain ⟨p,hp⟩ := Option.isSome_iff_exists.mp (hs v (mem_vagasDe.mp hv).1)
    exact ⟨p,hp,v.posicao_pos p hp⟩
  have hmap : ((k.vagasDe f).map (fun v => (v.posicao.getD 0).toNat)).Nodup := by
    refine hnd.map_on (fun v hv w hw he => ?_)
    obtain ⟨p,hp,h1⟩ := hpos v hv
    obtain ⟨q,hq,h2⟩ := hpos w hw
    rw [hp,hq,Option.getD_some,Option.getD_some] at he
    obtain ⟨hvr,hvf⟩ := mem_vagasDe.mp hv
    obtain ⟨hwr,hwf⟩ := mem_vagasDe.mp hw
    have hpq : p=q := by omega
    exact hu v hvr w hwr (hvf.trans hwf.symm) (by rw [hp,hq,hpq]) (by simp [hvf]) (by simp [hp])
  have hsub : ((k.vagasDe f).map (fun v => (v.posicao.getD 0).toNat)).toFinset ⊆
      Finset.Icc 1 (k.maiorPosicao f) := by
    intro n hn
    obtain ⟨v,hv,rfl⟩ := List.mem_map.mp (List.mem_toFinset.mp hn)
    obtain ⟨p,hp,h1⟩ := hpos v hv
    have hle := le_maiorPosicao hv hp
    rw [hp,Option.getD_some,Finset.mem_Icc]
    omega
  have hcard := Finset.card_le_card hsub
  rwa [List.toFinset_card_of_nodup hmap,List.length_map,Nat.card_Icc,Nat.add_sub_cancel] at hcard

end Core

namespace Isolamento

/-- Desks, each calling from a colegiado of its own. -/
structure Plano (δ : Type) where
  mesa : δ → Nat
  colegiado : δ → Nat
  separados : Function.Injective colegiado

/-- The colegiado of a fila, as it was in the beginning. -/
def dono (k₀ : Core) (f : Nat) : Option Nat := (k₀.filas.find f).bind FilaBase.colegiadoId

def Plano.Atende {δ : Type} (P : Plano δ) (k₀ : Core) (d : δ) (f : Nat) : Prop :=
  dono k₀ f=some (P.colegiado d)

theorem Plano.Atende.unico {δ : Type} {P : Plano δ} {k₀ : Core} {d e : δ} {f : Nat}
    (h : P.Atende k₀ d f) (h' : P.Atende k₀ e f) : e=d :=
  P.separados (Option.some.inj (h'.symm.trans h))

/-- Filas stay with their colegiado. -/
def Fixas (k₀ k : Core) : Prop := ∀ f ∈ k.filas.rows,dono k₀ f.id=f.colegiadoId

/-- Where a vaga waits, unless the pointer had reached it already in the beginning. -/
def lugar (k₀ k : Core) (v : Nat) : Option (Nat × Int) :=
  (k.vagas.find v).bind (fun r => r.filaId.bind (fun f => r.posicao.bind (fun p =>
    if (k₀.ponteiro f).getD 0<p then some (f,p) else none)))

theorem lugar_eq_some {k₀ k : Core} {v f : Nat} {p : Int} : lugar k₀ k v=some (f,p) ↔
    ∃ r,k.vagas.find v=some r ∧ r.filaId=some f ∧ r.posicao=some p ∧
      (k₀.ponteiro f).getD 0<p := by
  unfold lugar
  simp only [Option.bind_eq_some_iff,Option.ite_none_right_eq_some,Option.some.injEq,
    Prod.mk.injEq]
  constructor
  · rintro ⟨r,hr,g,hg,q,hq,hlt,rfl,rfl⟩
    exact ⟨r,hr,hg,hq,hlt⟩
  · rintro ⟨r,hr,hf,hp,hlt⟩
    exact ⟨r,hr,f,hf,p,hp,hlt,rfl,rfl⟩

/-- No two vagas wait in one place. -/
theorem lugar_injective {k₀ k : Core} (hu : k.PosicoesUnicas) (v w : Nat) (x : Nat × Int)
    (hv : lugar k₀ k v=some x) (hw : lugar k₀ k w=some x) : v=w := by
  obtain ⟨r,hr,hrf,hrp,-⟩ := lugar_eq_some.mp hv
  obtain ⟨s,hs,hsf,hsp,-⟩ := lugar_eq_some.mp hw
  have he := hu r (Table.mem_of_find hr) s (Table.mem_of_find hs) (hrf.trans hsf.symm)
    (hrp.trans hsp.symm) (by simp [hrf]) (by simp [hrp])
  rw [← Table.key_of_find hr,← Table.key_of_find hs,he]

section eventos

variable {δ ι : Type} [DecidableEq δ] [DecidableEq ι]

/-- The move desk `d` still has to answer. -/
def pendente (tr : List ((δ ⊕ ι) × Evento)) (d : δ) : Option (Nat × Int) :=
  match (meus (.inl d) tr).head? with
  | some (.incrementa f p) => some (f,p)
  | _ => none

variable {tr : List ((δ ⊕ ι) × Evento)} {i : δ ⊕ ι} {e : Evento}

theorem pendente_congr {tr' : List ((δ ⊕ ι) × Evento)} {d : δ}
    (h : meus (.inl d) tr'=meus (.inl d) tr) : pendente tr' d=pendente tr d := by
  unfold pendente
  rw [h]

theorem meus_cons_of_ne {j : δ ⊕ ι} (h : i≠j ∨ e.atende=false) :
    meus j ((i,e)::tr)=meus j tr := by
  rcases h with h | h
  · simp [meus,h]
  · simp [meus,h]

theorem pendente_cons (he : e.atende=false) : pendente ((i,e)::tr)=pendente tr := by
  funext d
  exact pendente_congr (meus_cons_of_ne (.inr he))

theorem pendente_incrementa (d : δ) (f : Nat) (p : Int) :
    pendente ((Sum.inl d,.incrementa f p)::tr)=Function.update (pendente tr) d (some (f,p)) := by
  funext e
  by_cases h : e=d
  · subst h
    rw [Function.update_self,pendente,Desks.meus_cons rfl]
    rfl
  · rw [Function.update_of_ne h]
    exact pendente_congr (meus_cons_of_ne (.inl (by simpa using Ne.symm h)))

theorem pendente_associa (d : δ) (m : Nat) (v : Option Nat) :
    pendente ((Sum.inl d,.associa m v)::tr)=Function.update (pendente tr) d none := by
  funext e
  by_cases h : e=d
  · subst h
    rw [Function.update_self,pendente,Desks.meus_cons rfl]
    rfl
  · rw [Function.update_of_ne h]
    exact pendente_congr (meus_cons_of_ne (.inl (by simpa using Ne.symm h)))

omit [DecidableEq δ] [DecidableEq ι] in
theorem assentos_cons (he : e.atende=false) : assentos ((i,e)::tr)=assentos tr := by
  cases e <;> first | rfl | cases he

end eventos

section invariante

variable {δ ι : Type} [DecidableEq δ] [DecidableEq ι] (P : Plano δ) (k₀ : Core)

/-- What holds at every moment. -/
structure Inv (x : Obs (δ ⊕ ι) Evento World) : Prop where
  fixas : Fixas k₀ x.core
  unicas : x.core.PosicoesUnicas
  postas : ∀ v ∈ x.core.vagas.rows,v.posicao.isSome
  ate : ∀ f q,x.core.ponteiro f=some q → q≤(x.core.maiorPosicao f : Int)
  desde : ∀ f q,x.core.ponteiro f=some q → (k₀.ponteiro f).getD 0≤q
  entrega : Handover (P.Atende k₀) (lugar k₀ x.core) x.core.ponteiro (assentos x.trace)
    (pendente x.trace)
  origem : ∀ i m v,(i,.associa m (some v)) ∈ x.trace → ∃ d,i=.inl d ∧ m=P.mesa d ∧
    ∃ f p,lugar k₀ x.core v=some (f,p) ∧ P.Atende k₀ d f

variable {P k₀} {x y : Obs (δ ⊕ ι) Evento World} {i : δ ⊕ ι} {d : δ} {e : Evento}

/-- Statements that move no pointer and write no desk add no seat. -/
theorem Inv.origem_cons (h : Inv P k₀ x) (he : e.atende=false) {j : δ ⊕ ι} {m v : Nat}
    (hm : (j,.associa m (some v)) ∈ (i,e)::x.trace) : ∃ d,j=.inl d ∧ m=P.mesa d ∧
      ∃ f p,lugar k₀ x.core v=some (f,p) ∧ P.Atende k₀ d f := by
  rcases List.mem_cons.mp hm with hh | hm
  · obtain ⟨-,rfl⟩ := Prod.mk.inj hh
    cases he
  · exact h.origem j m v hm

theorem Inv.quieta (h : Inv P k₀ x) (hk : y.core=x.core) (ht : y.trace=(i,e)::x.trace)
    (he : e.atende=false) : Inv P k₀ y where
  fixas := by rw [hk]; exact h.fixas
  unicas := by rw [hk]; exact h.unicas
  postas := by rw [hk]; exact h.postas
  ate := by rw [hk]; exact h.ate
  desde := by rw [hk]; exact h.desde
  entrega := by
    rw [hk,ht,assentos_cons he,pendente_cons he]
    exact h.entrega
  origem := by
    rw [hk,ht]
    exact fun j m v hm => h.origem_cons he hm

theorem find_insereVaga (k : Core) (a f n : Nat) (t : ℚ) (v : Nat) :
    (k.insereVaga a f n t).vagas.find v=
      if v=k.vagas.next then some (k.novaVaga a f n t) else k.vagas.find v := by
  have hfind : (k.insereVaga a f n t).vagas.find v=
      (k.vagas.find v).or ([k.novaVaga a f n t].find? (fun r => Row.key r==v)) := by
    rw [Table.find,Core.rows_insereVaga,List.find?_append]
    rfl
  rw [hfind]
  split_ifs with hv
  · have hnone : k.vagas.find v=none := by
      rw [Table.find,List.find?_eq_none]
      intro r hr
      have hb := k.vagas.below r hr
      simp only [beq_iff_eq]
      omega
    rw [hnone,hv]
    simp [Core.novaVaga,Row.key]
  · have hne : k.vagas.next≠v := Ne.symm hv
    simp [Core.novaVaga,Row.key,hne]

theorem maiorPosicao_insereVaga (k : Core) (a f n : Nat) (t : ℚ) (g : Nat) :
    k.maiorPosicao g≤(k.insereVaga a f n t).maiorPosicao g := by
  refine Core.maiorPosicao_le (fun v hv p hp => ?_)
  refine Core.le_maiorPosicao (v := v) ?_ hp
  rw [Core.vagasDe_insereVaga]
  split_ifs
  · exact List.mem_append_left _ hv
  · exact hv

/-- An enrolment goes past everybody, so past the pointer too. -/
theorem Inv.insere (h : Inv P k₀ x) {a f n : Nat} {t : ℚ} (hn : Positions.Ate x.core f n)
    (hk : y.core=x.core.insereVaga a f n t) (ht : y.trace=(i,e)::x.trace)
    (he : e.atende=false) : Inv P k₀ y := by
  have hlugar : ∀ v,v≠x.core.vagas.next → lugar k₀ y.core v=lugar k₀ x.core v := by
    intro v hv
    rw [lugar,lugar,hk,find_insereVaga,if_neg hv]
  have hnovo : lugar k₀ x.core x.core.vagas.next=none := by
    have hnone : x.core.vagas.find x.core.vagas.next=none := by
      rw [Table.find,List.find?_eq_none]
      intro r hr
      have hb := x.core.vagas.below r hr
      simp only [beq_iff_eq]
      omega
    rw [lugar,hnone]
    rfl
  have hpont : y.core.ponteiro=x.core.ponteiro := by rw [hk]; rfl
  refine ⟨?_,?_,?_,?_,?_,?_,?_⟩
  · rw [hk]
    exact h.fixas
  · rw [hk]
    exact (Positions.Escrita.insere a f n 0 t hn).posicoesUnicas h.unicas
  · rw [hk,Core.rows_insereVaga]
    intro v hv
    rcases List.mem_append.mp hv with hv | hv
    · exact h.postas v hv
    · rw [List.mem_singleton.mp hv]
      rfl
  · intro g q hq
    rw [hpont] at hq
    have hle := h.ate g q hq
    have hm := maiorPosicao_insereVaga x.core a f n t g
    rw [hk]
    omega
  · rw [hpont]
    exact h.desde
  · rw [ht,assentos_cons he,pendente_cons he,hpont]
    refine h.entrega.join hnovo hlugar (fun g p q hg hq => ?_)
    obtain ⟨r,hr,hrf,hrp,-⟩ := lugar_eq_some.mp hg
    rw [hk,find_insereVaga,if_pos rfl] at hr
    obtain rfl := Option.some.inj hr
    obtain rfl : f=g := Option.some.inj hrf
    obtain rfl : ((n+1 : Nat) : Int)=p := Option.some.inj hrp
    have hq' := h.ate f q hq
    have hle := Core.maiorPosicao_le hn
    omega
  · intro j m v hm
    rw [ht] at hm
    obtain ⟨d,hj,hd,g,p,hl,ha⟩ := h.origem_cons he hm
    have hv : v≠x.core.vagas.next := by
      rintro rfl
      rw [hnovo] at hl
      cases hl
    exact ⟨d,hj,hd,g,p,by rw [hlugar v hv]; exact hl,ha⟩

theorem fixas_incrementa {k : Core} (h : Fixas k₀ k) (f : Nat) (n : Int) :
    Fixas k₀ (k.incrementa f n) := by
  intro g hg
  obtain ⟨b,hb,hid,-,-,hc,-⟩ := k.mem_filas_incrementa hg
  rw [hid,hc]
  exact h b hb

/-- A desk moves the pointer of a fila of its own. -/
theorem Inv.move (h : Inv P k₀ x) {f : FilaBase} (hd : P.Atende k₀ d f.id)
    (hp : pendente x.trace d=none) (hf : x.core.filas.find f.id=some f)
    (hm : f.posicao+1≤(x.core.maiorPosicao f.id : Int)) :
    Inv P k₀ (x.incrementa (.inl d) f.id 1) := by
  have hk := x.core_incrementa (.inl d) f.id 1
  have ht := Obs.trace_incrementa (.inl d) 1 hf
  have hq : x.core.ponteiro f.id=some f.posicao := by rw [Core.ponteiro,hf]; rfl
  have hself : (x.incrementa (.inl d) f.id 1).core.ponteiro f.id=some (f.posicao+1) := by
    rw [hk,Core.ponteiro_incrementa,if_pos rfl,hq]
    rfl
  have hother : ∀ g,g≠f.id → (x.incrementa (.inl d) f.id 1).core.ponteiro g=x.core.ponteiro g := by
    intro g hg
    rw [hk,Core.ponteiro_incrementa,if_neg hg]
  have hpont : ∀ g q,(x.incrementa (.inl d) f.id 1).core.ponteiro g=some q →
      g=f.id ∧ q=f.posicao+1 ∨ x.core.ponteiro g=some q := by
    intro g q hg
    by_cases hgf : g=f.id
    · subst hgf
      exact Or.inl ⟨rfl,Option.some.inj (hg.symm.trans hself)⟩
    · exact Or.inr (by rw [← hother g hgf]; exact hg)
  refine ⟨?_,?_,?_,?_,?_,?_,?_⟩
  · rw [hk]
    exact fixas_incrementa h.fixas f.id 1
  · rw [hk]
    exact h.unicas
  · rw [hk]
    exact h.postas
  · intro g q hg
    have hv : (x.incrementa (.inl d) f.id 1).core.maiorPosicao g=x.core.maiorPosicao g := by
      rw [hk]
      rfl
    rw [hv]
    rcases hpont g q hg with ⟨rfl,rfl⟩ | hg
    · exact hm
    · exact h.ate g q hg
  · intro g q hg
    rcases hpont g q hg with ⟨rfl,rfl⟩ | hg
    · have hle := h.desde f.id _ hq
      omega
    · exact h.desde g q hg
  · have hmove := h.entrega.move hd hp hq hself hother
    have hv : lugar k₀ (x.incrementa (.inl d) f.id 1).core=lugar k₀ x.core := by
      rw [hk]
      rfl
    rw [ht,hv,pendente_incrementa]
    exact hmove
  · intro j m v hm
    rw [ht] at hm
    rw [hk]
    rcases List.mem_cons.mp hm with hh | hm
    · cases hh
    · exact h.origem j m v hm

/-- What a desk write leaves as it was. -/
theorem Inv.associa (h : Inv P k₀ x) {m : Mesa} {v : Option Nat} {t : ℚ}
    (he : Handover (P.Atende k₀) (lugar k₀ x.core) x.core.ponteiro
      (assentos ((Sum.inl d,.associa m.id v)::x.trace)) (Function.update (pendente x.trace) d none))
    (ho : ∀ w,v=some w → m.id=P.mesa d ∧ ∃ f p,lugar k₀ x.core w=some (f,p) ∧ P.Atende k₀ d f) :
    Inv P k₀ (x.associa (.inl d) m v t) := by
  have hk := x.core_associa (.inl d) m v t
  refine ⟨by rw [hk]; exact h.fixas,by rw [hk]; exact h.unicas,by rw [hk]; exact h.postas,
    by rw [hk]; exact h.ate,by rw [hk]; exact h.desde,?_,?_⟩
  · rw [hk,Obs.trace_associa,pendente_associa]
    exact he
  · intro j n w hw
    rw [hk]
    rw [Obs.trace_associa] at hw
    rcases List.mem_cons.mp hw with hh | hw
    · obtain ⟨hj,ha⟩ := Prod.mk.inj hh
      obtain ⟨hn,hv⟩ := Evento.associa.inj ha
      obtain ⟨hm,hl⟩ := ho w hv.symm
      exact ⟨d,hj,hn.trans hm,hl⟩
    · exact h.origem j n w hw

/-- A desk that owes nothing is emptied. -/
theorem Inv.esvazia (h : Inv P k₀ x) (hp : pendente x.trace d=none) (m : Mesa) (t : ℚ) :
    Inv P k₀ (x.associa (.inl d) m none t) := by
  refine h.associa ?_ nofun
  have hu : Function.update (pendente x.trace) d none=pendente x.trace := by
    rw [← hp]
    exact Function.update_eq_self d _
  rw [hu]
  exact h.entrega

/-- A desk gets whoever stands where it has moved the pointer. -/
theorem Inv.senta (h : Inv P k₀ x) {f : Nat} {p : Int} {v : Option Vaga}
    (hp : pendente x.trace d=some (f,p)) (hq : x.core.ponteiro f=some p)
    (hdesde : (k₀.ponteiro f).getD 0<p) (hv : v.map Vaga.toVagaBase=x.core.vagaEm f p) {m : Mesa}
    (hm : m.id=P.mesa d) (t : ℚ) : Inv P k₀ (x.associa (.inl d) m (v.map (·.id)) t) := by
  have hd := h.entrega.owned d f p hp
  cases v with
  | none =>
    have hnone : ∀ w,lugar k₀ x.core w≠some (f,p) := by
      intro w hw
      obtain ⟨r,hr,hrf,hrp,-⟩ := lugar_eq_some.mp hw
      have hem := h.unicas.vagaEm (Table.mem_of_find hr) hrf hrp
      rw [hem] at hv
      cases hv
    exact h.associa (h.entrega.skip (fun e he => hd.unico he) hp hnone) nofun
  | some w =>
    have hem := Core.mem_of_vagaEm hv.symm
    have hl : lugar k₀ x.core w.id=some (f,p) :=
      lugar_eq_some.mpr ⟨w.toVagaBase,Table.find_of_mem hem.1,hem.2.1,hem.2.2,hdesde⟩
    refine h.associa (h.entrega.serve (lugar_injective h.unicas) (fun e he => hd.unico he) hp hl hq
      le_rfl) (fun u hu => ?_)
    obtain rfl := Option.some.inj hu
    exact ⟨hm,f,p,hl,hd⟩

end invariante

section regras

variable {δ ι : Type} [DecidableEq δ] [DecidableEq ι] (P : Plano δ) (k₀ : Core)

/-- What desk `d` may rely on. -/
structure Alheio (d : δ) (x y : Obs (δ ⊕ ι) Evento World) : Prop where
  inv : Inv P k₀ x → Inv P k₀ y
  eventos : meus (.inl d) y.trace=meus (.inl d) x.trace
  fixas : Fixas k₀ x.core → Fixas k₀ y.core
  filas : ∀ f,P.Atende k₀ d f → y.core.filas.find f=x.core.filas.find f
  mesas : ∀ m,(x.core.mesas.find m).isSome → (y.core.mesas.find m).isSome
  maior : ∀ f,x.core.maiorPosicao f≤y.core.maiorPosicao f
  vagaEm : ∀ f p,p≤(x.core.maiorPosicao f : Int) → y.core.vagaEm f p=x.core.vagaEm f p

/-- What a statement of desk `d` does: it touches no fila of the others and no list. -/
structure Avanca (d : δ) (x y : Obs (δ ⊕ ι) Evento World) : Prop where
  inv : Inv P k₀ x → Inv P k₀ y
  evento : ∃ e,y.trace=(.inl d,e)::x.trace ∧ ∀ f,e.insereEm f=false
  fixas : Fixas k₀ x.core → Fixas k₀ y.core
  filas : ∀ f,¬P.Atende k₀ d f → y.core.filas.find f=x.core.filas.find f
  mesas : ∀ m,(x.core.mesas.find m).isSome → (y.core.mesas.find m).isSome
  vagas : y.core.vagas=x.core.vagas

variable {P k₀} {d : δ} {x y : Obs (δ ⊕ ι) Evento World}

theorem Alheio.refl (d : δ) (x : Obs (δ ⊕ ι) Evento World) : Alheio P k₀ d x x :=
  ⟨id,rfl,id,fun _ _ => rfl,fun _ h => h,fun _ => le_rfl,fun _ _ _ => rfl⟩

theorem Alheio.trans (d : δ) (x y z : Obs (δ ⊕ ι) Evento World) (h : Alheio P k₀ d x y)
    (h' : Alheio P k₀ d y z) : Alheio P k₀ d x z where
  inv hx := h'.inv (h.inv hx)
  eventos := h'.eventos.trans h.eventos
  fixas hx := h'.fixas (h.fixas hx)
  filas f hf := (h'.filas f hf).trans (h.filas f hf)
  mesas m hm := h'.mesas m (h.mesas m hm)
  maior f := (h.maior f).trans (h'.maior f)
  vagaEm f p hp := by
    have hm := h.maior f
    exact (h'.vagaEm f p (by omega)).trans (h.vagaEm f p hp)

theorem Avanca.alheio {e : δ} (h : Avanca P k₀ d x y) (hde : d≠e) : Alheio P k₀ e x y where
  inv := h.inv
  eventos := by
    obtain ⟨ev,ht,-⟩ := h.evento
    rw [ht]
    exact meus_cons_of_ne (.inl (by simpa using hde))
  fixas := h.fixas
  filas f hf := h.filas f (fun hd => hde (hf.unico hd))
  mesas := h.mesas
  maior f := by
    rw [Core.maiorPosicao,Core.maiorPosicao,h.vagas]
  vagaEm f p _ := by rw [Core.vagaEm,Core.vagaEm,Core.vagasDe,Core.vagasDe,h.vagas]

theorem Avanca.rely (h : Avanca P k₀ d x y) (j : ι) : Positions.Rely (Sum.inr j) x y := by
  obtain ⟨e,ht,-⟩ := h.evento
  refine Watched.of_step (by simp) ht (fun f _ => ?_)
  exact congrArg (fun t : Table VagaBase => t.rows.filter (Core.naFila (some f))) h.vagas

/-- Statements the core does not show. -/
theorem Alheio.quieto {l : World → Evento} {w : World → World} (h : Quieto l w) (d : δ)
    (x : Obs (δ ⊕ ι) Evento World) : Alheio P k₀ d x (x.push (.inl d) l w) := by
  have hk : (x.push (.inl d) l w).core=x.core := h.2 x.state
  have ha := Evento.atende_of_marca (h.1 x.state)
  refine ⟨fun hx => hx.quieta hk rfl ha,meus_cons_of_ne (.inr ha),?_,?_,?_,?_,?_⟩
  · rw [hk]
    exact id
  · exact fun f _ => by rw [hk]
  · exact fun m hm => by rw [hk]; exact hm
  · exact fun f => by rw [hk]
  · exact fun f p _ => by rw [hk]

theorem insereEm_of_marca {e : Evento} (h : e.marca=false) (f : Nat) : e.insereEm f=false := by
  cases e with
  | cria a g v =>
    cases g with
    | none => rfl
    | some g =>
      cases v with
      | none => rfl
      | some v => cases h
  | _ => rfl

theorem Avanca.quieto {l : World → Evento} {w : World → World} (h : Quieto l w) (d : δ)
    (x : Obs (δ ⊕ ι) Evento World) : Avanca P k₀ d x (x.push (.inl d) l w) := by
  have hr : Alheio P k₀ d x (x.push (.inl d) l w) := Alheio.quieto h d x
  have hk : (x.push (.inl d) l w).core=x.core := h.2 x.state
  refine ⟨hr.inv,⟨l x.state,rfl,insereEm_of_marca (h.1 x.state)⟩,hr.fixas,?_,hr.mesas,?_⟩
  · exact fun f _ => by rw [hk]
  · rw [hk]

theorem Avanca.associa {m : Mesa} {v : Option Nat} {t : ℚ}
    (h : Inv P k₀ (x.associa (.inl d) m v t)) : Avanca P k₀ d x (x.associa (.inl d) m v t) := by
  have hk := x.core_associa (.inl d) m v t
  refine ⟨fun _ => h,⟨_,Obs.trace_associa ..,fun _ => rfl⟩,?_,?_,?_,?_⟩
  · rw [hk]
    exact id
  · exact fun f _ => by rw [hk]; rfl
  · intro n hn
    rw [hk,Core.isSome_mesa_ocupa]
    exact hn
  · rw [hk]
    rfl

theorem Avanca.incrementa {f : Nat} (hd : P.Atende k₀ d f)
    (h : Inv P k₀ (x.incrementa (.inl d) f 1)) : Avanca P k₀ d x (x.incrementa (.inl d) f 1) := by
  have hk := x.core_incrementa (.inl d) f 1
  refine ⟨fun _ => h,⟨_,rfl,fun _ => rfl⟩,?_,?_,?_,?_⟩
  · rw [hk]
    exact fun hx => fixas_incrementa hx f 1
  · intro g hg
    have hne : g≠f := fun he => hg (he ▸ hd)
    rw [hk,Core.incrementa,Table.find_modify_of_ne _ hne]
  · intro n hn
    rw [hk]
    exact hn
  · rw [hk]
    rfl

/-! The outline of a desk's calls. -/

/-- Between two calls: nothing is owed. -/
structure Livre (P : Plano δ) (k₀ : Core) (d : δ) (x : Obs (δ ⊕ ι) Evento World) : Prop where
  inv : Inv P k₀ x
  nada : pendente x.trace d=none
  mesa : (x.core.mesas.find (P.mesa d)).isSome

/-- A loaded fila of the desk is as stored. -/
def Atual (P : Plano δ) (k₀ : Core) (d : δ) (f : Fila) (x : Obs (δ ⊕ ι) Evento World) : Prop :=
  P.Atende k₀ d f.id → x.core.filas.find f.id=some f.toFilaBase

/-- Somebody waits. -/
structure Pronta (P : Plano δ) (k₀ : Core) (d : δ) (f : Fila) (x : Obs (δ ⊕ ι) Evento World) :
    Prop where
  livre : Livre P k₀ d x
  atual : Atual P k₀ d f x
  menor : f.posicao+1≤(x.core.maiorPosicao f.id : Int)

/-- The pointer has moved and the desk owes the new place. -/
structure Movida (P : Plano δ) (k₀ : Core) (d : δ) (f : Fila) (x : Obs (δ ⊕ ι) Evento World) :
    Prop where
  inv : Inv P k₀ x
  deve : pendente x.trace d=some (f.id,f.posicao+1)
  ponteiro : x.core.ponteiro f.id=some (f.posicao+1)
  depois : (k₀.ponteiro f.id).getD 0<f.posicao+1
  mesa : (x.core.mesas.find (P.mesa d)).isSome

theorem Livre.stable :
    Prog.Stable (Alheio P k₀ d : Obs (δ ⊕ ι) Evento World → _ → Prop) (Livre P k₀ d) :=
  fun _ _ hx h => ⟨h.inv hx.inv,by rw [pendente_congr h.eventos]; exact hx.nada,h.mesas _ hx.mesa⟩

theorem Atual.stable (f : Fila) :
    Prog.Stable (Alheio P k₀ d : Obs (δ ⊕ ι) Evento World → _ → Prop) (Atual P k₀ d f) :=
  fun _ _ hx h hd => by rw [h.filas f.id hd]; exact hx hd

theorem Pronta.stable (f : Fila) :
    Prog.Stable (Alheio P k₀ d : Obs (δ ⊕ ι) Evento World → _ → Prop) (Pronta P k₀ d f) := by
  intro x y hx h
  have hm := h.maior f.id
  have hp := hx.menor
  exact ⟨Livre.stable x y hx.livre h,Atual.stable f x y hx.atual h,by omega⟩

theorem Movida.stable (f : Fila) :
    Prog.Stable (Alheio P k₀ d : Obs (δ ⊕ ι) Evento World → _ → Prop) (Movida P k₀ d f) := by
  intro x y hx h
  have hd := hx.inv.entrega.owned d _ _ hx.deve
  refine ⟨h.inv hx.inv,by rw [pendente_congr h.eventos]; exact hx.deve,?_,hx.depois,
    h.mesas _ hx.mesa⟩
  rw [Core.ponteiro,h.filas f.id hd]
  exact hx.ponteiro

theorem Pronta.incrementa {f : Fila} (h : Pronta P k₀ d f x) (hd : P.Atende k₀ d f.id) :
    Movida P k₀ d f (x.incrementa (.inl d) f.id 1) := by
  have hf := h.atual hd
  have hq : x.core.ponteiro f.id=some f.posicao := by rw [Core.ponteiro,hf]; rfl
  have hdesde := h.livre.inv.desde f.id _ hq
  refine ⟨h.livre.inv.move (f := f.toFilaBase) hd h.livre.nada hf h.menor,?_,?_,by omega,?_⟩
  · rw [Obs.trace_incrementa (f := f.toFilaBase) (.inl d) 1 hf,pendente_incrementa,
      Function.update_self]
  · rw [Obs.core_incrementa,Core.ponteiro_incrementa,if_pos rfl,hq]
    rfl
  · rw [Obs.core_incrementa]
    exact h.livre.mesa

theorem Movida.associa {f : Fila} (h : Movida P k₀ d f x) {v : Option Vaga}
    (hv : v.map Vaga.toVagaBase=x.core.vagaEm f.id (f.posicao+1)) {m : Mesa} (hm : m.id=P.mesa d)
    (t : ℚ) : Livre P k₀ d (x.associa (.inl d) m (v.map (·.id)) t) := by
  refine ⟨h.inv.senta h.deve h.ponteiro h.depois hv hm t,?_,?_⟩
  · rw [Obs.trace_associa,pendente_associa,Function.update_self]
  · rw [Obs.core_associa,Core.isSome_mesa_ocupa]
    exact h.mesa

theorem Livre.associa (h : Livre P k₀ d x) (m : Mesa) (t : ℚ) :
    Livre P k₀ d (x.associa (.inl d) m none t) := by
  refine ⟨h.inv.esvazia h.nada _ t,?_,?_⟩
  · rw [Obs.trace_associa,pendente_associa,Function.update_self]
  · rw [Obs.core_associa,Core.isSome_mesa_ocupa]
    exact h.mesa

theorem firme {A : Obs (δ ⊕ ι) Evento World → Prop} (hA : Prog.Stable (Alheio P k₀ d) A) :
    Firme (Sum.inl d) (Alheio P k₀ d) (Avanca P k₀ d) A :=
  Firme.of_stable (fun _ _ x hq => Alheio.quieto hq d x) hA
    (fun _ _ x hq _ => Avanca.quieto hq d x)

/-- Desks move the pointers of their own filas only. -/
def noEscopo (P : Plano δ) (k₀ : Core) (_ : Obs (δ ⊕ ι) Evento World) (i : δ ⊕ ι) (e : Evento) :
    Prop := ∀ d f p,i=.inl d → e=.incrementa f p → P.Atende k₀ d f

/-- The outline, for a desk that keeps to its filas. -/
def roteiro (P : Plano δ) (k₀ : Core) (d : δ) : Roteiro (Sum.inl d : δ ⊕ ι) (noEscopo P k₀)
    (Alheio P k₀ d) (Avanca P k₀ d) (P.mesa d) where
  livre := Livre P k₀ d
  carregada f := Atual P k₀ d f
  pronta := Pronta P k₀ d
  movida := Movida P k₀ d
  olhada f v x := Movida P k₀ d f x ∧ v.map Vaga.toVagaBase=x.core.vagaEm f.id (f.posicao+1)
  feita := Livre P k₀ d
  refl := Alheio.refl d
  firme_livre := firme Livre.stable
  firme_carregada f := firme (Atual.stable f)
  firme_pronta f := firme (Pronta.stable f)
  firme_movida f := firme (Movida.stable f)
  firme_olhada f v := firme (fun x y hx h => ⟨Movida.stable f x y hx.1 h,by
    rw [h.vagaEm f.id _ (hx.1.inv.ate f.id _ hx.1.ponteiro)]
    exact hx.2⟩)
  firme_feita := firme Livre.stable
  feita_of_livre _ h := h
  livre_of_pronta _ _ h := h.livre
  mesa_of_livre _ h := h.mesa
  mesa_of_olhada _ _ _ h := h.1.mesa
  carrega x _ f hf _ :=
    (x.core.filas.find_eq_some_iff _ _).mpr ⟨List.mem_map.mpr ⟨f,hf,rfl⟩,rfl⟩
  conta f x hx hc hn := by
    rw [Db.contaVagas_core] at hn
    have hle := Core.length_le_maiorPosicao (f := f.id) hx.inv.unicas hx.inv.postas
    refine ⟨hx,hc,?_⟩
    change f.posicao<((x.core.vagasDe f.id).length : Int) at hn
    omega
  incrementa f x h hok := by
    have hd := hok d f.id _ rfl rfl
    exact ⟨Avanca.incrementa hd (h.incrementa hd).inv,h.incrementa hd⟩
  olha _ _ _ h hv := ⟨h,hv⟩
  ocupa _ _ _ _ t hd h := ⟨Avanca.associa (h.1.associa h.2 hd t).inv,h.1.associa h.2 hd t⟩
  esvazia _ m t _ h := ⟨Avanca.associa (h.associa m t).inv,h.associa m t⟩

theorem triple_chamadas {rs : List Requisicao}
    (hr : ∀ r ∈ rs,∃ s,r=.colegiadosProximo s (P.colegiado d) ∧ s.mesa=some (P.mesa d)) :
    Prog.Triple (Sum.inl d : δ ⊕ ι) (noEscopo P k₀) (Alheio P k₀ d) (Avanca P k₀ d) (Livre P k₀ d)
      (Requisicao.sucessivas rs) (fun _ => Livre P k₀ d) := by
  induction rs with
  | nil => exact Prog.Triple.ret Livre.stable (fun _ h => h)
  | cons r rs ih =>
    obtain ⟨s,rfl,hs⟩ := hr r List.mem_cons_self
    apply Prog.Triple.bind (Alheio.refl d) ((roteiro P k₀ d).colegiadosProximo _ hs)
    intro _
    exact ih (fun q hq => hr q (List.mem_cons_of_mem _ hq))

end regras

/-! Which pointers a call can move at all: those of the filas loaded for its colegiado. -/

section escopo

variable {δ : Type} {P : Plano δ} {k₀ : Core} {d : δ}

def Escopo (P : Plano δ) (k₀ : Core) (d : δ) (l : World → Evento) (w : World → World) : Prop :=
  ∀ s : World,Fixas k₀ s.db.core →
    (∀ f p,l s=.incrementa f p → P.Atende k₀ d f) ∧ Fixas k₀ (w s).db.core

/-- A part of a call. -/
abbrev Cabe {α : Type} (P : Plano δ) (k₀ : Core) (d : δ) (p : Req α) (B : α → Prop) : Prop :=
  p.Within (fun s => Fixas k₀ s.db.core) (Escopo P k₀ d) B

theorem Escopo.quieto {l : World → Evento} {w : World → World} (h : Quieto l w) :
    Escopo P k₀ d l w := by
  intro s hs
  refine ⟨fun f p he => ?_,by rw [h.2 s]; exact hs⟩
  have hm := h.1 s
  rw [he] at hm
  cases hm

theorem cabe_every {α : Type} {p : Req α} (hp : p.Every Quieto) :
    Cabe P k₀ d p (fun _ => True) := hp.within (fun _ _ => Escopo.quieto)

/-- A SELECT, with what it finds. -/
theorem cabe_le {α : Type} {l : Db → Evento} (hl : ∀ s,(l s).marca=false) {q : Db → α}
    {B : α → Prop} (h : ∀ s : World,Fixas k₀ s.db.core → B (q s.db)) :
    Cabe P k₀ d (le l q) B :=
  ⟨Escopo.quieto ⟨fun s => hl s.db,fun _ => rfl⟩,h⟩

theorem cabe_associa (v : Option Vaga) (m : Option Nat) :
    Cabe P k₀ d (Mesa.associaVagaAMesa v m) (fun _ => True) := by
  apply (cabe_every (Mesa.every_registra v)).bind
  intro _ _
  apply (cabe_every (every_consulta _)).bind
  intro o _
  cases o with
  | none => trivial
  | some mesa =>
    apply (cabe_every every_timeNow).bind
    intro t _
    exact ⟨fun s hs => ⟨nofun,hs⟩,fun _ _ => trivial⟩

theorem cabe_chamaProximo {f : Fila} (hf : P.Atende k₀ d f.id) (m : Option Nat) :
    Cabe P k₀ d (f.chamaProximo m 1) (fun _ => True) := by
  have hinc : Cabe P k₀ d (Fila.increment f.id 1) (fun _ => True) := by
    refine ⟨fun s hs => ⟨fun g p he => ?_,?_⟩,fun _ _ => trivial⟩
    · rw [← (Evento.incrementa.inj he).1]
      exact hf
    · change Fixas k₀ (s.db.incrementa f.id 1).core
      rw [Db.core_incrementa]
      exact fixas_incrementa hs f.id 1
  apply hinc.bind
  intro _ _
  apply (cabe_every (every_consulta _)).bind
  intro v _
  exact cabe_associa v m

theorem cabe_esvazia (mesa : Mesa) (s : Sessao) :
    Cabe P k₀ d (ColegiadosController.esvazia mesa s) (fun _ => True) := by
  apply (cabe_every (every_consulta _)).bind
  intro o _
  cases o with
  | none => trivial
  | some v =>
    apply (cabe_associa none s.mesa).bind
    intro _ _
    exact cabe_every every_notifica

/-- The loop returns one of the filas it was given. -/
theorem cabe_primeiraNaoVazia (fs : List Fila) :
    Cabe P k₀ d (Colegiado.primeiraNaoVazia fs) (fun o => ∀ f ∈ o,f ∈ fs) := by
  induction fs with
  | nil => exact fun _ h => absurd h (by simp)
  | cons f fs ih =>
    apply (cabe_every (every_consulta _)).bind
    intro n _
    split_ifs
    · intro g hg
      rw [Option.some.inj hg]
      exact List.mem_cons_self
    · exact ih.mono (fun o ho g hg => List.mem_cons_of_mem _ (ho g hg))

theorem cabe_proximaFilaNaoVazia :
    Cabe P k₀ d (Colegiado.proximaFilaNaoVazia (P.colegiado d))
      (fun o => ∀ f ∈ o,P.Atende k₀ d f.id) := by
  have hload : Cabe P k₀ d (carrega (Colegiado.filasDe (P.colegiado d)))
      (fun fs => ∀ f ∈ fs,P.Atende k₀ d f.id) := by
    apply cabe_le (fun _ => rfl)
    intro s hs f hf
    obtain ⟨hm,hc⟩ := List.mem_filter.mp ((mem_orderBy _ _ _).mp hf)
    have hd := hs f.toFilaBase (List.mem_map.mpr ⟨f,hm,rfl⟩)
    exact hd.trans (beq_iff_eq.mp hc)
  apply hload.bind
  intro fs hfs
  exact (cabe_primeiraNaoVazia fs).mono (fun o ho f hf => hfs f (ho f hf))

theorem cabe_proximo (s : Sessao) :
    Cabe P k₀ d (ColegiadosController.proximo s (P.colegiado d)) (fun _ => True) := by
  have hset : Cabe P k₀ d (ColegiadosController.setColegiado (P.colegiado d))
      (fun c => c.id=P.colegiado d) := by
    have hq : Cabe P k₀ d (consulta (fun b => b.colegiados.find (P.colegiado d)))
        (fun o => ∀ c ∈ o,c.id=P.colegiado d) :=
      cabe_le (fun _ => rfl) (fun s _ c hc => Table.key_of_find hc)
    apply hq.bind
    intro o ho
    cases o with
    | none => trivial
    | some c => exact ho c rfl
  apply hset.bind
  intro c hc
  apply (cabe_every (every_authorize s)).bind
  intro _ _
  apply (cabe_every (every_consulta _)).bind
  intro mesa _
  cases mesa with
  | none => trivial
  | some mesa =>
    rw [hc]
    apply cabe_proximaFilaNaoVazia.bind
    intro o ho
    have hat : Cabe P k₀ d (ColegiadosController.atende o mesa s) (fun _ => True) := by
      cases o with
      | none => exact cabe_esvazia mesa s
      | some f =>
        apply (cabe_every (every_consulta _)).bind
        intro n _
        split_ifs
        · exact cabe_esvazia mesa s
        · apply (cabe_chamaProximo (ho f rfl) s.mesa).bind
          intro _ _
          exact cabe_every every_notifica
    exact hat.bind (fun _ _ => trivial)

theorem cabe_chamadas {rs : List Requisicao}
    (hr : ∀ r ∈ rs,∃ s,r=.colegiadosProximo s (P.colegiado d) ∧ s.mesa=some (P.mesa d)) :
    Cabe P k₀ d (Requisicao.sucessivas rs) (fun _ => True) := by
  induction rs with
  | nil => trivial
  | cons r rs ih =>
    obtain ⟨s,rfl,-⟩ := hr r List.mem_cons_self
    apply (cabe_proximo s).bind
    intro _ _
    exact ih (fun q hq => hr q (List.mem_cons_of_mem _ hq))

end escopo

/-! Enrolments touch nothing but vagas. -/

section inscricoes

def Neutra (l : World → Evento) (w : World → World) : Prop :=
  ∀ s,(l s).atende=false ∧ (w s).db.core={ s.db.core with vagas := (w s).db.core.vagas }

theorem Neutra.quieto {l : World → Evento} {w : World → World} (h : Quieto l w) : Neutra l w :=
  fun s => ⟨Evento.atende_of_marca (h.1 s),by rw [h.2 s]⟩

theorem Quieto.every {α : Type} {p : Req α} (h : p.Every Quieto) : p.Every Neutra := by
  induction p with
  | ret a => trivial
  | raise e => trivial
  | step l w k ih => exact ⟨Neutra.quieto h.1,fun s => ih s (h.2 s)⟩

theorem neutra_create (a : Aluno) (f : Option Nat) : (Vaga.create a f).Every Neutra := by
  apply (Quieto.every (every_consulta _)).bind
  intro o
  cases o with
  | none =>
    have hq : (le (fun _ => .cria a.id none none) (fun _ => ())).Every Quieto :=
      every_le (fun _ => rfl) _
    exact (Quieto.every hq).bind (fun _ => trivial)
  | some g =>
    apply (Quieto.every (every_consulta _)).bind
    intro fundo
    apply (Quieto.every every_timeNow).bind
    intro t
    have hw : (escreve (fun d => .cria a.id (some g.id) (some d.vagas.next))
        (fun d => d.insereVaga a.id (some g.id) fundo t)).Every Neutra :=
      ⟨fun s => ⟨rfl,rfl⟩,fun _ => trivial⟩
    exact hw.bind (fun _ => trivial)

theorem neutra_jaNaFila (v : Vaga) (f : Fila) : (TelaController.jaNaFila v f).Every Neutra := by
  unfold TelaController.jaNaFila
  split_ifs
  · trivial
  · refine (every_orRaise _ _).bind (fun p => (every_orRaise _ _).bind (fun t => ?_))
    split <;> trivial

theorem neutra_inscreveMatricula (m : Option String) :
    (TelaController.inscreveMatricula m).Every Neutra := by
  apply (Quieto.every (every_consulta _)).bind
  intro o
  cases o with
  | none => trivial
  | some a =>
    dsimp only
    split_ifs
    · trivial
    · apply (Quieto.every (every_consulta _)).bind
      intro emGrupo
      split_ifs
      · trivial
      · apply (Quieto.every (every_consulta _)).bind
        intro g
        cases g with
        | none => trivial
        | some g =>
          apply (Quieto.every a.every_proximaVaga).bind
          intro vf
          cases vf with
          | some vf => exact neutra_jaNaFila vf.1 vf.2
          | none => exact (neutra_create a g.filaId).bind (fun _ => trivial)

theorem neutra_inscrever (s : Sessao) (m : Option String) :
    (TelaController.inscrever s m).Every Neutra := by
  apply (Quieto.every (every_consulta _)).bind
  intro r
  apply (every_orRaise _ _).bind
  intro d
  split_ifs
  · exact neutra_inscreveMatricula m
  · trivial
  · exact neutra_inscreveMatricula m
  · trivial

theorem neutra_inscricoes {rs : List Requisicao} (hr : ∀ r ∈ rs,r.acao=.inscrever) :
    (Requisicao.sucessivas rs).Every Neutra := by
  induction rs with
  | nil => trivial
  | cons r rs ih =>
    have hp : r.prog.Every Neutra := by
      cases r with
      | inscrever s m => exact neutra_inscrever s m
      | _ => exact absurd (hr _ List.mem_cons_self) (by simp [Requisicao.acao])
    exact hp.bind (fun _ => ih (fun q hq => hr q (List.mem_cons_of_mem _ hq)))

theorem triple_inscricoes {ι : Type} [DecidableEq ι] {i : ι} {rs : List Requisicao}
    (hr : ∀ r ∈ rs,r.acao=.inscrever) :
    Positions.Segue i (fun _ => True) (Requisicao.sucessivas rs) (fun _ _ => True) := by
  induction rs with
  | nil => exact fun _ _ _ _ => trivial
  | cons r rs ih =>
    have hp : Positions.Segue i (fun _ => True) r.prog (fun _ _ => True) := by
      cases r with
      | inscrever s m => exact (Positions.inscricao i).inscrever s m
      | _ => exact absurd (hr _ List.mem_cons_self) (by simp [Requisicao.acao])
    exact Prog.Triple.bind (Watched.refl i) hp
      (fun _ => ih (fun q hq => hr q (List.mem_cons_of_mem _ hq)))

end inscricoes

section sistema

variable {δ ι : Type} [DecidableEq δ] [DecidableEq ι] (P : Plano δ) (k₀ : Core)

def Rely : δ ⊕ ι → Obs (δ ⊕ ι) Evento World → Obs (δ ⊕ ι) Evento World → Prop
  | .inl d => Alheio P k₀ d
  | .inr j => Positions.Rely (.inr j)

/-- A statement of a client, with what its program says about it. -/
def Guarantee : δ ⊕ ι → Obs (δ ⊕ ι) Evento World → Obs (δ ⊕ ι) Evento World → Prop
  | .inl d => fun x y => Avanca P k₀ d x y ∧ ∃ l w,Escopo P k₀ d l w ∧ y=x.push (.inl d) l w
  | .inr j => fun x y => Positions.Guarantee (.inr j) x y ∧
      ∃ l w,Neutra l w ∧ y=x.push (.inr j) l w

def Fim : δ ⊕ ι → Unit → Obs (δ ⊕ ι) Evento World → Prop
  | .inl d => fun _ => Livre P k₀ d
  | .inr _ => fun _ _ => True

variable {P k₀} {x y : Obs (δ ⊕ ι) Evento World}

theorem Rely.refl (i : δ ⊕ ι) (x : Obs (δ ⊕ ι) Evento World) : Rely P k₀ i x x := by
  cases i with
  | inl d => exact Alheio.refl d x
  | inr j => exact Watched.refl _ x

theorem Rely.trans (i : δ ⊕ ι) (x y z : Obs (δ ⊕ ι) Evento World) (h : Rely P k₀ i x y)
    (h' : Rely P k₀ i y z) : Rely P k₀ i x z := by
  cases i with
  | inl d => exact Alheio.trans d x y z h h'
  | inr j => exact Watched.trans _ x y z h h'

theorem vagaEm_insereVaga {k : Core} {a f n : Nat} {t : ℚ} (hn : Positions.Ate k f n) {g : Nat}
    {p : Int} (hp : p≤(k.maiorPosicao g : Int)) :
    (k.insereVaga a f n t).vagaEm g p=k.vagaEm g p := by
  rw [Core.vagaEm,Core.vagaEm,Core.vagasDe_insereVaga]
  split_ifs with hg
  · subst hg
    have hle := Core.maiorPosicao_le hn
    have hne : ((n : Int)+1==p)=false := beq_eq_false_iff_ne.mpr (by omega)
    rw [List.find?_append]
    simp [Core.novaVaga,hne]
  · rfl

theorem escrita_inv {k k' : Core} {e : Evento} (h : Positions.Escrita k e k') :
    k'.vagas=k.vagas ∨ ∃ a f n t,Positions.Ate k f n ∧ k'=k.insereVaga a f n t := by
  cases h with
  | nada _ hv => exact Or.inl hv
  | insere a f n v t hn => exact Or.inr ⟨a,f,n,t,hn,rfl⟩

/-- A statement of an enrolment changes nothing, or adds a vaga past all the others. -/
theorem inscricao_inv {j : ι} (h : Guarantee P k₀ (.inr j) x y) :
    ∃ e,y.trace=(.inr j,e)::x.trace ∧ e.atende=false ∧ (y.core=x.core ∨
      ∃ a f n t,Positions.Ate x.core f n ∧ y.core=x.core.insereVaga a f n t) := by
  obtain ⟨⟨e,ht,hw⟩,l,w,hn,hy⟩ := h
  obtain ⟨ha,hc⟩ := hn x.state
  obtain rfl : l x.state=e := by
    rw [hy] at ht
    exact (Prod.mk.inj (List.cons.inj ht).1).2
  have hcore : y.core={ x.core with vagas := y.core.vagas } := by
    rw [hy]
    exact hc
  refine ⟨l x.state,ht,ha,?_⟩
  rcases escrita_inv hw with hv | hi
  · exact Or.inl (by rw [hcore,hv])
  · exact Or.inr hi

theorem inv_of_inscricao {j : ι} (h : Guarantee P k₀ (.inr j) x y) (hx : Inv P k₀ x) :
    Inv P k₀ y := by
  obtain ⟨e,ht,ha,hk | ⟨a,f,n,t,hn,hk⟩⟩ := inscricao_inv h
  · exact hx.quieta hk ht ha
  · exact hx.insere hn hk ht ha

theorem alheio_of_inscricao {j : ι} (h : Guarantee P k₀ (.inr j) x y) (d : δ) :
    Alheio P k₀ d x y := by
  obtain ⟨e,ht,ha,hk⟩ := inscricao_inv h
  have hown : meus (Sum.inl d) y.trace=meus (Sum.inl d) x.trace := by
    rw [ht]
    exact meus_cons_of_ne (.inr ha)
  rcases hk with hk | ⟨a,f,n,t,hn,hk⟩
  · exact ⟨inv_of_inscricao h,hown,by rw [hk]; exact id,fun f _ => by rw [hk],
      fun m hm => by rw [hk]; exact hm,fun f => by rw [hk],fun f p _ => by rw [hk]⟩
  · refine ⟨inv_of_inscricao h,hown,by rw [hk]; exact id,fun f _ => by rw [hk]; rfl,
      fun m hm => by rw [hk]; exact hm,?_,?_⟩
    · intro g
      rw [hk]
      exact maiorPosicao_insereVaga x.core a f n t g
    · intro g p hp
      rw [hk]
      exact vagaEm_insereVaga hn hp

theorem Guarantee.rely {i j : δ ⊕ ι} (hij : i≠j) (h : Guarantee P k₀ i x y) :
    Rely P k₀ j x y := by
  cases i with
  | inl d =>
    cases j with
    | inl e => exact h.1.alheio (fun he => hij (congrArg Sum.inl he))
    | inr j => exact h.1.rely j
  | inr i =>
    cases j with
    | inl e => exact alheio_of_inscricao h e
    | inr j => exact h.1.rely hij

theorem Guarantee.inv {i : δ ⊕ ι} (h : Guarantee P k₀ i x y) (hx : Inv P k₀ x) : Inv P k₀ y := by
  cases i with
  | inl d => exact h.1.inv hx
  | inr j => exact inv_of_inscricao h hx

/-- The clients: desks, and people who enrol. -/
def clientes (chamadas : δ → List Requisicao) (inscricoes : ι → List Requisicao) (i : δ ⊕ ι) :
    Req Unit := Requisicao.sucessivas (Sum.elim chamadas inscricoes i)

/-- Every interleaving keeps the invariant, and a desk that is done owes nothing. -/
theorem reach {s₀ : World} (hm : ∀ d,(s₀.db.mesas.find (P.mesa d)).isSome)
    {chamadas : δ → List Requisicao} {inscricoes : ι → List Requisicao}
    (hc : ∀ d,∀ r ∈ chamadas d,∃ s,r=.colegiadosProximo s (P.colegiado d) ∧ s.mesa=some (P.mesa d))
    (hi : ∀ j,∀ r ∈ inscricoes j,r.acao=.inscrever)
    (h₀ : Inv P s₀.db.core (Config.start s₀ (clientes chamadas inscricoes)).obs)
    {c : Config (δ ⊕ ι) Evento World Erro Unit}
    (h : Config.Reach semInsercao (Config.start s₀ (clientes chamadas inscricoes)) c) :
    Inv P s₀.db.core c.obs ∧ ∀ d,(c.pool (.inl d)).returned → pendente c.obs.trace d=none := by
  have hsafe : (Config.start s₀ (clientes chamadas inscricoes)).AllSafe semInsercao
      (Rely P s₀.db.core) (Guarantee P s₀.db.core) (Fim P s₀.db.core) := by
    intro i
    cases i with
    | inl d =>
      refine (triple_chamadas (hc d) _ ⟨h₀,rfl,hm d⟩).within (cabe_chamadas (hc d)) h₀.fixas
        (fun x y hxy => hxy.fixas) (fun l w s hS hs => (hS s hs).2) ?_
      intro y l w hS hy _ e f p he hl
      obtain rfl := Sum.inl.inj he
      exact (hS y.state hy).1 f p hl
    | inr j =>
      exact (triple_inscricoes (hi j) _ trivial).within (I := fun _ => True)
        ((neutra_inscricoes (hi j)).within (fun _ _ h => h)) trivial (fun _ _ _ h => h)
        (fun _ _ _ _ h => h) (fun _ _ _ _ _ h => h)
  obtain ⟨hall,hinv⟩ := hsafe.reach h (Inv P s₀.db.core) h₀ Rely.refl Rely.trans
    (fun i j hij x y hg => hg.rely hij) (fun i x y hx hg => hg.inv hx)
  refine ⟨hinv,fun d hd => ?_⟩
  obtain ⟨_,hl⟩ := hall.returned Rely.refl hd
  exact hl.nada

end sistema

end Isolamento

namespace Isolamento

open Cenario

/-- A fila handed to colegiado 2. -/
def cedida (f : FilaBase) : FilaBase := { f with colegiadoId := some 2 }

/-- Fila 1 belongs to colegiado 1 and fila 2 to colegiado 2; one aluno waits in each. -/
def doisColegiados : World where
  db := { db (duas.modify 2 (fun f => { f with toFilaBase := cedida f.toFilaBase }) (fun _ => rfl))
      umaEmCada with
    colegiados := (db duas umaEmCada).colegiados.insert (fun n => { id := n }) (fun _ => rfl) }
  clock := fun n => (world duas umaEmCada).clock (n+1)

/-- A desk for each colegiado. -/
def duasMesas : Plano Bool where
  mesa b := if b then 1 else 2
  colegiado b := if b then 1 else 2
  separados := by decide

def chamadas (b : Bool) : List Requisicao :=
  List.replicate (if b then 2 else 1)
    (.colegiadosProximo (mesa (duasMesas.mesa b)) (duasMesas.colegiado b))

/-- Each desk stops in the middle of its call for the other, and the second call of desk 1 finds an
aluno who enrolled meanwhile. -/
def corrida : Config (Bool ⊕ Unit) Evento World Erro Unit :=
  (Config.start doisColegiados (clientes chamadas (fun _ : Unit => [inscreve "c"]))).fireAll
    (List.replicate 6 (.inl true)++List.replicate 7 (.inl false)++List.replicate 9 (.inl true)++
      List.replicate 40 (.inr ())++List.replicate 60 (.inl false)++List.replicate 80 (.inl true))

theorem corrida_reach : Config.Reach semInsercao
    (Config.start doisColegiados (clientes chamadas (fun _ : Unit => [inscreve "c"]))) corrida :=
  Config.Reach.refl.fireAll _ (by decide +kernel)

end Isolamento

end Sisfila
