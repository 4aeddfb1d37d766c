import DesignSystem.Component.Fragments.Basic
/-!
# Fragments of the progress
-/

namespace DesignSystem.Fragments

/-- The fragments of the progress. -/
def progress : Fragments where
  styles := Text.lines [
    ".progress \x7b",
    "  display: flex;",
    "  flex-direction: column;",
    "  gap: var(--ds-geometry-spacing-1);",
    "\x7d",
    "",
    ".label \x7b",
    "  display: flex;",
    "  justify-content: space-between;",
    "  font-family: var(--ds-typography-variants-caption-fontFamily);",
    "  font-size: var(--ds-typography-variants-caption-fontSize);",
    "  line-height: var(--ds-typography-variants-caption-lineHeight);",
    "  color: var(--ds-color-textMuted);",
    "\x7d",
    "",
    ".track \x7b",
    "  height: var(--ds-geometry-spacing-2);",
    "  overflow: hidden;",
    "  background: var(--ds-color-surfaceMuted);",
    "  border-radius: var(--ds-geometry-radius-full);",
    "\x7d",
    "",
    ".bar \x7b",
    "  height: 100%;",
    "  background: var(--ds-color-primary);",
    "  border-radius: inherit;",
    "  transition: width 200ms ease;",
    "\x7d"]
  element := Text.lines [
    "<div class=\"progress\" role=\"progressbar\" aria-valuemin=\"0\" aria-valuemax=\"$\x7bthis.max\x7d\" aria-valuenow=\"$\x7bthis.value\x7d\">",
    "  $\x7bthis.label ? `<div class=\"label\"><span>$\x7bescapeHtml(this.label)\x7d</span><span>$\x7bthis.percent\x7d%</span></div>` : ''\x7d",
    "  <div class=\"track\"><div class=\"bar\" style=\"width: $\x7bthis.percent\x7d%\"></div></div>",
    "</div>"]
  reactView := Text.lines [
    "const percent = max <= 0 ? 0 : Math.round(Math.min(100, Math.max(0, (value / max) * 100)));",
    "",
    "return (",
    "  <div",
    "    className=\x7bcx(styles.progress, className)\x7d",
    "    role=\"progressbar\"",
    "    aria-valuemin=\x7b0\x7d",
    "    aria-valuemax=\x7bmax\x7d",
    "    aria-valuenow=\x7bvalue\x7d",
    "  >",
    "    \x7blabel && (",
    "      <div className=\x7bstyles.label\x7d>",
    "        <span>\x7blabel\x7d</span>",
    "        <span>\x7bpercent\x7d%</span>",
    "      </div>",
    "    )\x7d",
    "    <div className=\x7bstyles.track\x7d>",
    "      <div className=\x7bstyles.bar\x7d style=\x7b\x7b width: `$\x7bpercent\x7d%` \x7d\x7d />",
    "    </div>",
    "  </div>",
    ");"]
  angularView := Text.lines [
    "<div",
    "  class=\"progress\"",
    "  role=\"progressbar\"",
    "  aria-valuemin=\"0\"",
    "  [attr.aria-valuemax]=\"max\"",
    "  [attr.aria-valuenow]=\"value\"",
    ">",
    "  <div *ngIf=\"label\" class=\"label\">",
    "    <span>\x7b\x7b label \x7d\x7d</span>",
    "    <span>\x7b\x7b percent \x7d\x7d%</span>",
    "  </div>",
    "  <div class=\"track\"><div class=\"bar\" [style.width.%]=\"percent\"></div></div>",
    "</div>"]
  elementMembers := some <| Text.lines [
    "private get percent(): number \x7b",
    "  if (this.max <= 0) \x7b",
    "    return 0;",
    "  \x7d",
    "  return Math.round(Math.min(100, Math.max(0, (this.value / this.max) * 100)));",
    "\x7d"]
  angularMembers := some <| Text.lines [
    "get percent(): number \x7b",
    "  if (this.max <= 0) \x7b",
    "    return 0;",
    "  \x7d",
    "  return Math.round(Math.min(100, Math.max(0, (this.value / this.max) * 100)));",
    "\x7d"]

end DesignSystem.Fragments
