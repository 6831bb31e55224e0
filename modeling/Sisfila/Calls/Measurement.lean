import Mathlib.Algebra.Field.Rat
import Mathlib.Algebra.Order.Ring.Rat
import Sisfila.Calls.Clock

namespace Sisfila

namespace Mesa

variable {i : Nat} {x : Vista} {t : World} {v : Vaga}

/-! What a call does to the measurement of its fila. -/

theorem estatisticas_aberta (x : Vista) (p total : Int) (hval : x.valida=true) :
    (vistaAberta x p (some total)).fila.toEstatisticas=if p=1 ∧ p≠total
      then { x.fila.toEstatisticas with
        realizarcalculo := some true, tiatendimento := some (x.clock 0) }
      else x.fila.toEstatisticas := by
  unfold vistaAberta
  by_cases hc : p=1 ∧ p≠total
  · rw [if_pos (by simpa using hc),if_pos hc,Vista.grava_estatisticas,Vista.tique_fila,
      Vista.grava_estatisticas]
    simp [hval]
  · rw [if_neg (by simpa using hc),if_neg hc]

/-- Where the latch and its time stand after a call, wherever the call stops: the first call sets
them and the last one clears the latch. A measurement that raises is not the last call. -/
theorem trava_medeChamada (h : Ve i x t) (hv : v.filaId=some i) (hval : x.valida=true)
    (p total : Int) (mesa : Option Nat) :
    ∃ y,Ve i y ((medeChamada v mesa p (some total)).exec t).state ∧
      y.fila.tiatendimento=(if p=1 ∧ p≠total then some (x.clock 0) else x.fila.tiatendimento) ∧
      y.fila.realizarcalculo=(if p=total then some false
        else if p=1 then some true else x.fila.realizarcalculo) := by
  obtain ⟨t₁,h₁,hv₁⟩ := yields_abreMedicao h hv p (some total)
  have hest := estatisticas_aberta x p total hval
  have hval₁ : (vistaAberta x p (some total)).valida=true := by
    rw [← hval,vistaAberta]
    split_ifs <;> rfl
  have hfim : (encerraChamada v mesa (some total)).Every
      (Conserva (fun e => (e.tiatendimento,e.realizarcalculo))) :=
    conserva_encerraChamada (fun _ _ => rfl) (fun _ _ => rfl) (fun _ _ => rfl) v mesa _
  unfold medeChamada
  rw [h₁.state_bind]
  generalize vistaAberta x p (some total)=x₁ at *
  by_cases hp : p=total
  · have hnot : ¬Mede x₁.fila.toEstatisticas p (some total) := fun hm => hm.2.1 (by rw [hp])
    have h₂ := mede_of_not hv₁ hv hnot
    have h₃ : ∃ t₃,Yields (fechaMedicao v p (some total)) t₁ () t₃ ∧
        Ve i (x₁.grava (fun e => { e with realizarcalculo := some false })) t₃ := by
      rw [fechaMedicao,if_pos (by rw [hp])]
      exact yields_updateFila hv₁ hv _
    obtain ⟨t₃,h₃,hv₃⟩ := h₃
    obtain ⟨y,hy,-,-,-,hπ⟩ := hv₃.conserva hfim
    rw [h₂.state_bind,h₃.state_bind]
    rw [Vista.grava_estatisticas,if_pos hval₁,hest,if_neg (fun hc => hc.2 hp)] at hπ
    obtain ⟨hti,hlatch⟩ := Prod.mk.inj hπ
    refine ⟨y,hy,?_,?_⟩
    · rw [if_neg (fun hc => hc.2 hp)]
      exact hti
    · rw [if_pos hp]
      exact hlatch
  · have hS := leve_conserva (fun e : Estatisticas => (e.tiatendimento,e.realizarcalculo))
    have hfecha : fechaMedicao v p (some total)=pure () := by
      rw [fechaMedicao,if_neg (by simpa using hp)]
    have hrest : (mede v p (some total) >>= fun _ => fechaMedicao v p (some total) >>=
        fun _ => encerraChamada v mesa (some total)).Every
          (Conserva (fun e => (e.tiatendimento,e.realizarcalculo))) := by
      rw [hfecha]
      exact (every_mede hS v _ _ (fun _ _ => rfl) (fun _ _ => rfl)).bind (fun _ => hfim)
    obtain ⟨y,hy,-,-,-,hπ⟩ := hv₁.conserva hrest
    rw [hest] at hπ
    refine ⟨y,hy,?_,?_⟩
    · have hti := congrArg Prod.fst hπ
      dsimp only at hti
      rw [hti]
      split_ifs <;> rfl
    · have hlatch := congrArg Prod.snd hπ
      dsimp only at hlatch
      rw [hlatch,if_neg hp]
      by_cases h1 : p=1
      · rw [if_pos ⟨h1,hp⟩,if_pos h1]
      · rw [if_neg (fun hc => h1 hc.1),if_neg h1]

/-- What a call measures. -/
theorem tempo_medeChamada (h : Ve i x t) (hv : v.filaId=some i) (hval : x.valida=true)
    {p total : Int} {ti : ℚ} (hm : Mede x.fila.toEstatisticas p (some total))
    (hti : x.fila.tiatendimento=some ti) (mesa : Option Nat) :
    ∃ y,Ve i y ((medeChamada v mesa p (some total)).exec t).state ∧
      y.fila.tempoatendimento=some (.num ((x.clock 0-ti)/((p-1 : Int) : ℚ))) := by
  have h2 : 2<p := hm.1
  have hab : Yields (abreMedicao v p (some total)) t () t := by
    rw [abreMedicao,if_neg (by omega)]
    exact ⟨rfl,rfl⟩
  have htf : (if x.valida then some (x.clock 0) else x.fila.tfatendimento)=some (x.clock 0) := by
    rw [if_pos hval]
  obtain ⟨t₂,h₂,hv₂⟩ := yields_mede_of h hv hm hti htf
  have hS := leve_conserva (fun e : Estatisticas => e.tempoatendimento)
  have hrest : (fechaMedicao v p (some total) >>=
      fun _ => encerraChamada v mesa (some total)).Every (Conserva (fun e => e.tempoatendimento)) :=
    (every_fechaMedicao hS v _ _ (fun _ _ => rfl)).bind (fun _ =>
      conserva_encerraChamada (fun _ _ => rfl) (fun _ _ => rfl) (fun _ _ => rfl) v mesa _)
  obtain ⟨y,hy,-,-,-,hπ⟩ := hv₂.conserva hrest
  unfold medeChamada
  rw [hab.state_bind,h₂.state_bind]
  refine ⟨y,hy,hπ.trans ?_⟩
  have hval₁ : (x.tique.grava (fun e => { e with
      tfatendimento := some (x.clock 0) })).valida=true := hval
  have hne : ((p-1 : Int) : ℚ)≠0 := by exact_mod_cast (by omega : p-1≠0)
  rw [vistaMedicao,Vista.grava_estatisticas,if_pos hval₁]
  exact congrArg some (if_neg hne)

end Mesa

/-! The called fila, and the others. -/

/-- Statements that leave every fila but `i` alone. -/
def SoFila (i : Nat) (_ : World → Evento) (w : World → World) : Prop :=
  ∀ s j,j≠i → (w s).db.filas.find j=s.db.filas.find j

theorem leve_soFila (i : Nat) : Leve (fun j _ => j=some i) (SoFila i) where
  le _ _ := fun _ _ _ => rfl
  relogio := fun _ _ _ => rfl
  fila k g hk := by
    intro s j hj
    subst hk
    exact s.db.filas.find_modify_of_ne hj _ (by intro f; dsimp only; split <;> rfl)

theorem soFila_associaVagaAMesa {v : Vaga} {i : Nat} (hv : v.filaId=some i) (mesa : Option Nat) :
    (Mesa.associaVagaAMesa (some v) mesa).Every (SoFila i) := by
  have hvagas : ∀ (p : VagaBase → Bool) (g : ℚ → Chamada → Chamada),
      (timeNow >>= fun q => grava (fun d => d.updateVagas p (g q))).Every (SoFila i) :=
    fun p g => ⟨fun _ _ _ => rfl,fun _ => ⟨fun _ _ _ => rfl,fun _ => trivial⟩⟩
  have hespera : (Mesa.registraEspera v).Every (SoFila i) :=
    Mesa.every_registraEspera_of_leve (leve_soFila i) (fun _ => hv) (hvagas _ _)
  have hmesa : (Mesa.ocupaMesa (some v) mesa).Every (SoFila i) :=
    Mesa.every_ocupaMesa (leve_soFila i) (some v) mesa (fun _ _ _ _ _ => rfl)
  rw [Mesa.associaVagaAMesa_marca]
  exact (hvagas _ _).bind (fun _ => hespera.bind (fun _ => hmesa))

theorem find_chamaProximo_of_ne {f : Fila} {j : Nat} (hj : j≠f.id) (n : Int) (mesa : Option Nat)
    (s : World) : ((f.chamaProximo mesa n).exec s).state.db.filas.find j=s.db.filas.find j := by
  have hinc : (s.db.incrementa f.id n).filas.find j=s.db.filas.find j :=
    s.db.filas.find_modify_of_ne hj (fun f => f.incrementada n) (fun _ => rfl)
  cases hv : s.db.vagaAlvo f n with
  | none =>
    obtain ⟨ms,hms⟩ := db_chamaProximo_of_none hv mesa
    rw [hms,← hinc]
  | some v =>
    rw [state_chamaProximo,hv,← hinc]
    exact (soFila_associaVagaAMesa (Db.vagaAlvo_some hv).2.2 mesa).exec_rel
      (fun a b => b.db.filas.find j=a.db.filas.find j) (fun _ => rfl)
      (fun _ _ _ hab hbc => hbc.trans hab) (fun _ _ h s => h s j hj) _

/-- The called fila after the call. -/
theorem trava_chamaProximo {f : Fila} {s : World} (h : s.db.core.Ordeira)
    (hc : Monotone s.clock) (hf : s.db.filas.find f.id=some f) (n : Int) (mesa : Option Nat) :
    ∃ f',((f.chamaProximo mesa n).exec s).state.db.filas.find f.id=some f' ∧
      f'.posicao=f.posicao+n ∧
      f'.tiatendimento=(if f.posicao+n=1 ∧ 1<s.db.contaVagas f.id then some (s.clock 2)
        else f.tiatendimento) ∧
      f'.realizarcalculo=(if 1≤f.posicao+n ∧ f.posicao+n=(s.db.contaVagas f.id : Int) then some false
        else if f.posicao+n=1 ∧ 1<s.db.contaVagas f.id then some true else f.realizarcalculo) ∧
      (f.posicao+n=1 ∧ 1<s.db.contaVagas f.id →
        s.clock 2≤((f.chamaProximo mesa n).exec s).state.clock 0) := by
  have hval := h.filaValida hf
  have hve := ve_incrementa hf n
  have hiff := vagaAlvo_iff h.contigua f n
  have hstate := state_chamaProximo f n mesa s
  cases hva : s.db.vagaAlvo f n with
  | none =>
    -- nobody is there, and only the pointer moves
    rw [hva] at hiff
    have hno : ¬(1≤f.posicao+n ∧ f.posicao+n≤(s.db.contaVagas f.id : Int)) := by
      rw [← hiff]
      simp
    obtain ⟨ms,hms⟩ := db_chamaProximo_of_none hva mesa
    refine ⟨{ f with posicao := f.posicao+n },?_,rfl,?_,?_,by omega⟩
    · rw [hms]
      exact hve.fila
    · rw [if_neg (by omega)]
    · rw [if_neg (by omega),if_neg (by omega)]
  | some v =>
    obtain ⟨h1,hle⟩ := hiff.mp ⟨v,hva⟩
    obtain ⟨hvm,hvp,hvf⟩ := Db.vagaAlvo_some hva
    obtain ⟨⟨u,hu,hup⟩,-⟩ := h.contigua.posicoes hvm
    obtain ⟨t,ht,hst⟩ := Mesa.state_associaVagaAMesa hve hvf hu hup hvp mesa
    obtain ⟨y,hy,hti,hlatch⟩ := Mesa.trava_medeChamada ht hvf hval (f.posicao+n)
      (s.db.contaVagas f.id : Int) mesa
    rw [hva,hst] at hstate
    rw [← hstate] at hy
    have hpos := posicao_chamaProximo hf hf hy.fila
    rw [if_pos rfl] at hpos
    refine ⟨y.fila,hy.fila,hpos,?_,?_,fun _ => ?_⟩
    · rw [hti,Mesa.coluna_entrada (fun e => e.tiatendimento) (fun _ _ _ _ => rfl)]
      split_ifs <;> first | rfl | omega
    · rw [hlatch,Mesa.coluna_entrada (fun e => e.realizarcalculo) (fun _ _ _ _ => rfl)]
      split_ifs <;> first | rfl | omega
    · have hant := Adianta.medeChamada v mesa (f.posicao+n) (some (s.db.contaVagas f.id : Int)) t
      have htc : t.clock=fun m => s.clock (m+2) := ht.clock
      have hmono : Monotone t.clock := by
        rw [htc]
        exact fun a b hab => hc (Nat.add_le_add_right hab 2)
      have hle := hant.clock_le hmono
      rw [htc,← hstate] at hle
      exact hle

/-! The measurement over a whole run. -/

/-- The time at which the request calls the vaga at `posicao` 1 of fila `i` while the fila has more
than one: the reading of the clock that goes with the latch, the third of a call. -/
def Rota.abertura (r : Rota) (i : Nat) (s : World) : Option ℚ :=
  (s.db.filas.find i).bind (fun f => ((r.prog.exec s).state.db.filas.find i).bind (fun f' =>
    if f'.posicao≠f.posicao ∧ f'.posicao=1 ∧ (∃ v ∈ s.db.vagasDe (some i),v.posicao=some 1) ∧
      1<s.db.contaVagas i then some (s.clock 2) else none))

/-- The last such time of a run from `s`, or `a` if there is none. -/
def ultimaAbertura (i : Nat) : World → Option ℚ → List Rota → Option ℚ
  | _,a,[] => a
  | s,a,r::rs => ultimaAbertura i (r.prog.exec s).state ((r.abertura i s).or a) rs

/-- How the latch, the pointer and the times of a fila go together: `a` is the last opening of each
fila, and a latch that is set past the start of the list has one. -/
structure Medicao (s : World) (a : Nat → Option ℚ) : Prop where
  ordeira : s.db.core.Ordeira
  relogio : Monotone s.clock
  inicio : ∀ f ∈ s.db.filas.rows,f.tiatendimento=a f.id
  passado : ∀ i,∀ q ∈ a i,q ≤ s.clock 0
  trava : ∀ f ∈ s.db.filas.rows,1≤f.posicao → f.realizarcalculo=some true → a f.id≠none

theorem Rota.abertura_of_find {r : Rota} {i : Nat} {s : World}
    (h : (r.prog.exec s).state.db.filas.find i=s.db.filas.find i) : r.abertura i s=none := by
  unfold abertura
  rw [h]
  cases s.db.filas.find i <;> simp

theorem Rota.abertura_of_chama {r : Rota} {s : World} {f f' : Fila} {n : Int}
    (hc : s.db.core.Contigua) (hf : s.db.filas.find f.id=some f)
    (hf' : (r.prog.exec s).state.db.filas.find f.id=some f') (hp : f'.posicao=f.posicao+n)
    (hn : n≠0) : r.abertura f.id s=if f.posicao+n=1 ∧ 1<s.db.contaVagas f.id
      then some (s.clock 2) else none := by
  unfold abertura
  rw [hf,hf',Option.bind_some,Option.bind_some,hp]
  by_cases ho : f.posicao+n=1 ∧ 1<s.db.contaVagas f.id
  · obtain ⟨v,hv⟩ := (vagaAlvo_iff hc f n).mpr (by omega)
    obtain ⟨hvm,hvp,-⟩ := Db.vagaAlvo_some hv
    rw [if_pos ho,if_pos ⟨by omega,ho.1,⟨v,hvm,by rw [hvp,ho.1]⟩,ho.2⟩]
  · rw [if_neg ho,if_neg (fun hc => ho ⟨hc.2.1,hc.2.2.2⟩)]

namespace Medicao

variable {s : World} {a : Nat → Option ℚ}

/-- One request. -/
theorem passo (h : Medicao s a) {r : Rota} (hr : r.chamaOuApaga=true) :
    Medicao (r.prog.exec s).state (fun i => (r.abertura i s).or (a i)) := by
  have hant := Adianta.prog hr s
  have hord := Rota.ordeira h.ordeira hr
  have hold : ∀ i,∀ q ∈ a i,q≤(r.prog.exec s).state.clock 0 :=
    fun i q hq => (h.passado i q hq).trans (hant.clock_le h.relogio)
  rcases Rota.filas_or_chama (s := s) hr with he | ⟨f,n,mesa,hf,hn,hst⟩
  · have hab : ∀ i,r.abertura i s=none := fun i => Rota.abertura_of_find (by rw [he])
    refine ⟨hord,hant.monotone h.relogio,?_,?_,?_⟩
    · intro g hg
      rw [he] at hg
      rw [hab,Option.none_or]
      exact h.inicio g hg
    · intro i q hq
      rw [hab,Option.none_or] at hq
      exact hold i q hq
    · intro g hg h1 hl
      rw [he] at hg
      rw [hab,Option.none_or]
      exact h.trava g hg h1 hl
  · obtain ⟨f',hf',hpos,hti,hlatch,hclock⟩ := trava_chamaProximo h.ordeira h.relogio hf n mesa
    have hm := Table.mem_of_find hf
    have hother : ∀ j,j≠f.id →
        (r.prog.exec s).state.db.filas.find j=s.db.filas.find j := by
      intro j hj
      rw [hst]
      exact find_chamaProximo_of_ne hj n mesa s
    rw [← hst] at hf' hclock
    have hown := Rota.abertura_of_chama h.ordeira.contigua hf hf' hpos (by omega)
    -- a row after the call is the called fila or an old row
    have hrow : ∀ g ∈ (r.prog.exec s).state.db.filas.rows,g=f' ∧ g.id=f.id ∨
        g ∈ s.db.filas.rows ∧ r.abertura g.id s=none := by
      intro g hg
      have hgf : (r.prog.exec s).state.db.filas.find g.id=some g := Table.find_of_mem hg
      by_cases hid : g.id=f.id
      · rw [hid,hf'] at hgf
        exact Or.inl ⟨(Option.some.inj hgf).symm,hid⟩
      · have hfind := hother g.id hid
        rw [hgf] at hfind
        exact Or.inr ⟨Table.mem_of_find hfind.symm,
          Rota.abertura_of_find (hother g.id hid)⟩
    refine ⟨hord,hant.monotone h.relogio,?_,?_,?_⟩
    · intro g hg
      rcases hrow g hg with ⟨rfl,hid⟩ | ⟨hgm,hab⟩
      · rw [hid,hown,hti]
        split_ifs with ho
        · rfl
        · rw [Option.none_or]
          exact h.inicio f hm
      · rw [hab,Option.none_or]
        exact h.inicio g hgm
    · intro i q hq
      by_cases hid : i=f.id
      · rw [hid,hown] at hq
        split_ifs at hq with ho
        · obtain rfl : s.clock 2=q := by simpa using hq
          exact hclock ho
        · exact hold f.id q (by simpa using hq)
      · rw [Rota.abertura_of_find (hother i hid),Option.none_or] at hq
        exact hold i q hq
    · intro g hg h1 hl
      rcases hrow g hg with ⟨rfl,hid⟩ | ⟨hgm,hab⟩
      · rw [hlatch] at hl
        rw [hid,hown]
        by_cases ho : f.posicao+n=1 ∧ 1<s.db.contaVagas f.id
        · simp [ho]
        · rw [if_neg ho] at hl ⊢
          rw [Option.none_or]
          by_cases hlast : 1≤f.posicao+n ∧ f.posicao+n=(s.db.contaVagas f.id : Int)
          · rw [if_pos hlast] at hl
            simp at hl
          · -- the latch was set before, past the start of the list
            rw [if_neg hlast] at hl
            exact h.trava f hm (by omega) hl
      · rw [hab,Option.none_or]
        exact h.trava g hgm h1 hl

/-- Any number of them. -/
theorem corre (h : Medicao s a) {rs : List Rota} (hrs : ∀ r ∈ rs,r.chamaOuApaga=true) :
    Medicao (runAll Rota.prog s rs) (fun i => ultimaAbertura i s (a i) rs) := by
  induction rs generalizing s a with
  | nil => exact h
  | cons r rs ih =>
    exact ih (h.passo (hrs r List.mem_cons_self)) (fun q hq => hrs q (List.mem_cons_of_mem r hq))

end Medicao

/-- Filas as they are created, with `posicao` 0. -/
theorem medicao_inicial {s : World} (hv : s.db.vagas.rows=[]) (hf : ∀ f ∈ s.db.filas.rows,
    s.db.filaValida f.toFilaBase=true ∧ f.posicao=0 ∧ f.toEstatisticas={})
    (hc : Monotone s.clock) : Medicao s (fun _ => none) where
  ordeira := ordeira_of_vazia hv (fun f hm => (hf f hm).1)
  relogio := hc
  inicio := by
    intro f hm
    rw [(hf f hm).2.2]
  passado := by simp
  trava := by
    intro f hm h1
    have h0 := (hf f hm).2.1
    omega

/-- What a call measures in a state of the invariant. -/
theorem Medicao.mede {s : World} {a : Nat → Option ℚ} (h : Medicao s a) {f f' : Fila} {n : Int}
    {mesa : Option Nat} {v : Vaga} {ti : ℚ} (hf : s.db.filas.find f.id=some f)
    (hf' : ((f.chamaProximo mesa n).exec s).state.db.filas.find f.id=some f')
    (hva : s.db.vagaAlvo f n=some v)
    (hm : Mesa.Mede f.toEstatisticas (f.posicao+n) (some (s.db.contaVagas f.id : Int)))
    (hti : f.tiatendimento=some ti) :
    f'.tempoatendimento=some (.num ((s.clock 2-ti)/((f.posicao+n-1 : Int) : ℚ))) := by
  have hval := h.ordeira.filaValida hf
  obtain ⟨hvm,hvp,hvf⟩ := Db.vagaAlvo_some hva
  obtain ⟨⟨u,hu,hup⟩,-⟩ := h.ordeira.contigua.posicoes hvm
  obtain ⟨t,ht,hst⟩ := Mesa.state_associaVagaAMesa (ve_incrementa hf n) hvf hu hup hvp mesa
  rw [state_chamaProximo,hva,hst] at hf'
  have hkeep {β : Type} := @Mesa.coluna_entrada (s.vistaApos f n) v (f.posicao+n)
    (s.db.contaVagas f.id : Int) β
  have hlatch := (hkeep (fun e => e.realizarcalculo) (fun _ _ _ _ => rfl)).trans hm.2.2
  have hti' := (hkeep (fun e => e.tiatendimento) (fun _ _ _ _ => rfl)).trans hti
  obtain ⟨y,hy,hq⟩ := Mesa.tempo_medeChamada ht hvf hval ⟨hm.1,hm.2.1,hlatch⟩ hti' mesa
  obtain rfl : y.fila=f' := Option.some.inj (hy.fila.symm.trans hf')
  exact hq

/-- The attendance time is well defined whenever it is computed. In every state that enrolments,
calls, steps back and deletions reach from new filas, also by requests that raise, a call that
measures finds the time of the last call of the first vaga made while the fila had others, divides
by 2 at least and stores a time that is not negative. -/
theorem tempoatendimento_definido {s₀ s : World} (hv : s₀.db.vagas.rows=[])
    (hf₀ : ∀ f ∈ s₀.db.filas.rows,
      s₀.db.filaValida f.toFilaBase=true ∧ f.posicao=0 ∧ f.toEstatisticas={})
    (hc : Monotone s₀.clock) {rs : List Rota} (hrs : ∀ r ∈ rs,r.chamaOuApaga=true)
    (hs : s=runAll Rota.prog s₀ rs) {r : Rota} (hr : r.chamaOuApaga=true) {i : Nat} {f f' : Fila}
    {v : Vaga} (hf : s.db.filas.find i=some f)
    (hf' : (r.prog.exec s).state.db.filas.find i=some f') (hp : f'.posicao≠f.posicao)
    (hvm : v ∈ s.db.vagasDe (some i)) (hvp : v.posicao=some f'.posicao)
    (hm : Mesa.Mede f.toEstatisticas f'.posicao
      ((s.db.vagasDe (some i)).getLast?.bind (fun u => u.posicao))) :
    ∃ ti,f.tiatendimento=some ti ∧ ultimaAbertura i s₀ none rs=some ti ∧ 2≤f'.posicao-1 ∧
      ∃ q,0≤q ∧ q=(s.clock 2-ti)/((f'.posicao-1 : Int) : ℚ) ∧ f'.tempoatendimento=some (.num q) := by
  have h : Medicao s (fun i => ultimaAbertura i s₀ none rs) :=
    hs ▸ (medicao_inicial hv hf₀ hc).corre hrs
  obtain ⟨n,mesa,hpos,hn,hst⟩ := Rota.chamou hr hf hf' hp
  have hid : f.id=i := Table.key_of_find hf
  subst hid
  have hfm := Table.mem_of_find hf
  have h2 : 2<f'.posicao := hm.1
  -- the pointer was past the start of the list, so the latch comes with its time
  have hne := h.trava f hfm (by omega) hm.2.2
  obtain ⟨ti,hti⟩ := Option.ne_none_iff_exists'.mp hne
  have hfti : f.tiatendimento=some ti := (h.inicio f hfm).trans hti
  obtain ⟨⟨u,hu,hup⟩,k,hvk,hle⟩ := h.ordeira.contigua.posicoes hvm
  have hpk : f'.posicao=(k : Int) := Option.some.inj (hvp.symm.trans hvk)
  obtain ⟨w,hw⟩ := (vagaAlvo_iff h.ordeira.contigua f n).mpr (by omega)
  rw [hu,Option.bind_some,hup,hpos] at hm
  rw [hst] at hf'
  have htempo := h.mede hf hf' hw hm hfti
  rw [← hpos] at htempo
  refine ⟨ti,hfti,hti,by omega,_,?_,rfl,htempo⟩
  have hti0 : ti ≤ s.clock 0 := h.passado f.id ti hti
  have h02 : s.clock 0 ≤ s.clock 2 := h.relogio (Nat.zero_le 2)
  have hden : (0 : ℚ) ≤ ((f'.posicao-1 : Int) : ℚ) := by exact_mod_cast (by omega : 0≤f'.posicao-1)
  exact Rat.div_nonneg (sub_nonneg.mpr (hti0.trans h02)) hden

/-- Four enrolments and three calls: the first two raise, the third measures. -/
theorem tempoatendimento_definido_cenario :
    let rs : List Rota := [.requisicao (Cenario.inscreve "a"),.requisicao (Cenario.inscreve "b"),
      .requisicao (Cenario.inscreve "c"),.requisicao (Cenario.inscreve "d"),
      .requisicao (.filasProximo (Cenario.mesa 1) 1),.requisicao (.filasProximo (Cenario.mesa 1) 1)]
    let s := runAll Rota.prog (Cenario.world Cenario.nova Table.empty) rs
    let o := (Rota.requisicao (.filasProximo (Cenario.mesa 1) 1)).prog.exec s
    ∃ f' ∈ o.state.db.filas.find 1,f'.posicao=3 ∧
      ∃ ti,ultimaAbertura 1 (Cenario.world Cenario.nova Table.empty) none rs=some ti ∧
        ∃ q,0≤q ∧ q=(s.clock 2-ti)/2 ∧ f'.tempoatendimento=some (.num q) := by
  intro rs s o
  have hmono : Monotone (Cenario.world Cenario.nova Table.empty).clock := by
    intro a b hab
    have hcast : (a : ℚ) ≤ (b : ℚ) := by exact_mod_cast hab
    exact mul_le_mul_of_nonneg_left hcast (by decide)
  have hrs : ∀ r ∈ rs,r.chamaOuApaga=true := by decide
  obtain ⟨f,hf,f',hf',hp,hp3,v,hv,hvp,hm⟩ : ∃ f ∈ s.db.filas.find 1,
      ∃ f' ∈ ((Rota.requisicao (.filasProximo (Cenario.mesa 1) 1)).prog.exec s).state.db.filas.find
        1,f'.posicao≠f.posicao ∧ f'.posicao=3 ∧
      ∃ v ∈ s.db.vagasDe (some 1),v.posicao=some f'.posicao ∧
        Mesa.Mede f.toEstatisticas f'.posicao
          ((s.db.vagasDe (some 1)).getLast?.bind (fun u => u.posicao)) := by
    decide +kernel
  have hs : s=runAll Rota.prog (Cenario.world Cenario.nova Table.empty) rs := rfl
  clear_value s rs
  obtain ⟨ti,-,hti,-,q,hq,hqe,hft⟩ := tempoatendimento_definido rfl (by decide) hmono hrs hs
    (r := .requisicao (.filasProximo (Cenario.mesa 1) 1)) rfl hf hf' hp hv hvp hm
  refine ⟨f',hf',hp3,ti,hti,q,hq,?_,hft⟩
  rw [hqe,hp3]
  rfl

end Sisfila
