import DesignSystem.Component.Fragments.Basic
/-!
# Fragments of the toast
-/

namespace DesignSystem.Fragments

/-- The fragments of the toast. -/
def toast : Fragments where
  styles := Text.lines [
    ".toast \x7b",
    "  display: flex;",
    "  align-items: flex-start;",
    "  gap: var(--ds-geometry-spacing-3);",
    "  padding: var(--ds-geometry-spacing-3) var(--ds-geometry-spacing-4);",
    "  font-family: var(--ds-typography-variants-body-fontFamily);",
    "  font-size: var(--ds-typography-variants-body-fontSize);",
    "  line-height: var(--ds-typography-variants-body-lineHeight);",
    "  color: var(--ds-color-text);",
    "  background: var(--ds-color-surface);",
    "  border: var(--ds-geometry-border-width) solid var(--ds-color-border);",
    "  border-left-width: var(--ds-geometry-spacing-1);",
    "  border-radius: var(--ds-geometry-radius-lg);",
    "  box-shadow: var(--ds-effect-shadow-lg);",
    "\x7d",
    "",
    ".info \x7b",
    "  border-left-color: var(--ds-color-primary);",
    "\x7d",
    "",
    ".success \x7b",
    "  border-left-color: var(--ds-color-success);",
    "\x7d",
    "",
    ".warning \x7b",
    "  border-left-color: var(--ds-color-warning);",
    "\x7d",
    "",
    ".danger \x7b",
    "  border-left-color: var(--ds-color-danger);",
    "\x7d",
    "",
    ".content \x7b",
    "  display: flex;",
    "  flex: 1;",
    "  flex-direction: column;",
    "  gap: var(--ds-geometry-spacing-1);",
    "\x7d",
    "",
    ".heading \x7b",
    "  font-weight: var(--ds-typography-fontWeight-semibold);",
    "\x7d",
    "",
    ".message \x7b",
    "  font-size: var(--ds-typography-fontSize-sm);",
    "  color: var(--ds-color-textMuted);",
    "\x7d",
    "",
    ".dismiss \x7b",
    "  padding: 0;",
    "  font-size: var(--ds-typography-fontSize-lg);",
    "  line-height: var(--ds-typography-lineHeight-tight);",
    "  color: var(--ds-color-textMuted);",
    "  background: transparent;",
    "  border: none;",
    "  cursor: pointer;",
    "\x7d",
    "",
    ".dismiss:hover \x7b",
    "  color: var(--ds-color-text);",
    "\x7d"]
  element := Text.lines [
    "<div class=\"toast $\x7bthis.variant\x7d\" role=\"status\" aria-live=\"polite\" part=\"toast\">",
    "  <div class=\"content\">",
    "    $\x7bthis.heading ? `<strong class=\"heading\">$\x7bescapeHtml(this.heading)\x7d</strong>` : ''\x7d",
    "    $\x7bthis.message ? `<span class=\"message\">$\x7bescapeHtml(this.message)\x7d</span>` : ''\x7d",
    "  </div>",
    "  <button class=\"dismiss\" type=\"button\" aria-label=\"Dismiss\" data-dismiss>&times;</button>",
    "</div>"]
  reactView := Text.lines [
    "const [dismissed, setDismissed] = useState(false);",
    "",
    "if (dismissed) \x7b",
    "  return null;",
    "\x7d",
    "",
    "return (",
    "  <div className=\x7bcx(styles.toast, styles[variant], className)\x7d role=\"status\" aria-live=\"polite\">",
    "    <div className=\x7bstyles.content\x7d>",
    "      \x7bheading && <strong className=\x7bstyles.heading\x7d>\x7bheading\x7d</strong>\x7d",
    "      \x7bmessage && <span className=\x7bstyles.message\x7d>\x7bmessage\x7d</span>\x7d",
    "    </div>",
    "    <button",
    "      className=\x7bstyles.dismiss\x7d",
    "      type=\"button\"",
    "      aria-label=\"Dismiss\"",
    "      onClick=\x7b() => \x7b",
    "        setDismissed(true);",
    "        onDismiss?.(null);",
    "      \x7d\x7d",
    "    >",
    "      &times;",
    "    </button>",
    "  </div>",
    ");"]
  angularView := Text.lines [
    "<div *ngIf=\"!dismissed\" class=\"toast \x7b\x7b variant \x7d\x7d\" role=\"status\" aria-live=\"polite\">",
    "  <div class=\"content\">",
    "    <strong *ngIf=\"heading\" class=\"heading\">\x7b\x7b heading \x7d\x7d</strong>",
    "    <span *ngIf=\"message\" class=\"message\">\x7b\x7b message \x7d\x7d</span>",
    "  </div>",
    "  <button class=\"dismiss\" type=\"button\" aria-label=\"Dismiss\" (click)=\"dismissed = true; dismiss.emit()\">",
    "    &times;",
    "  </button>",
    "</div>"]
  elementMembers := none
  angularMembers := some <| Text.lines [
    "dismissed = false;"]

end DesignSystem.Fragments
